import Libusbgx.Source.Kernel

/-!
# Allocating and finding objects

The constructors of the objects, and the searches through the lists of the library.  What a
pointer points to is found by its address.
-/

namespace Libusbgx

open Prog

variable {κ : Type}

/-! ## Constructors -/

/-- A gadget as it is allocated. -/
abbrev Gadget.allocated (a : Addr) (path : Path) (name : CStr) : Gadget :=
  { addr := a, name, path, configs := [], functions := [], udc := none,
    osDescBinding := none, lastFailedImport := none }

/-- `usbg_allocate_gadget` -/
def usbgAllocateGadget (path : Path) (name : CStr) : Io κ Gadget := do
  let a ← malloc
  pure (.allocated a path name)

/-- The name `usbg_allocate_config` gives to a configuration. -/
def configName (label : CStr) (id : ℤ) : CStr := label ++ '.' :: printDec id

/-- A configuration as it is allocated. -/
abbrev Config.allocated (a : Addr) (path : Path) (label : CStr) (id : ℤ) : Config :=
  { addr := a, name := configName label id, path, label, id, bindings := [] }

/-- `usbg_allocate_config` -/
def usbgAllocateConfig (path : Path) (label : CStr) (id : ℤ) : Io κ Config := do
  let a ← malloc
  pure (.allocated a path label id)

/-- The name `usbg_init_function` gives to a function. -/
def functionName (type : FunctionType) (inst : CStr) : CStr := type.name ++ '.' :: inst

/-- A function as it is allocated: the masks of a mass storage or a video function start out empty. -/
abbrev Func.allocated (a : Addr) (path : Path) (type : FunctionType) (inst : CStr) : Func :=
  { addr := a, name := functionName type inst, path, inst, label := none, type, luns := [],
    lunsInitiated := false, frames := [[], []], formatsInitiated := false }

/-- `usbg_allocate_function`, with the `alloc_inst` of the type -/
def usbgAllocateFunction (path : Path) (type : FunctionType) (inst : CStr) : Io κ Func := do
  let a ← malloc
  pure (.allocated a path type inst)

/-- `usbg_allocate_binding`, with its target -/
def usbgAllocateBinding (path : Path) (name : CStr) (target : Func) : Io κ Binding :=
  pure { name, path, target := target.addr }

/-- `usbg_allocate_udc` -/
def usbgAllocateUdc (name : CStr) : Io κ Udc := do
  let a ← malloc
  pure { addr := a, name, gadget := none }

/-! ## Directories -/

/-- The directory of a gadget. -/
def Gadget.dir (g : Gadget) : Path := g.path ++ [g.name]

/-- The directory of a configuration. -/
def Config.dir (c : Config) : Path := c.path ++ [c.name]

/-- The directory of a function. -/
def Func.dir (f : Func) : Path := f.path ++ [f.name]

/-! ## Searches -/

/-- `usbg_get_gadget` -/
def usbgGetGadget (s : State) (name : CStr) : Option Gadget := s.gadgets.find? (·.name = name)

/-- `usbg_get_function` -/
def usbgGetFunction (g : Gadget) (type : FunctionType) (inst : CStr) : Option Func :=
  g.functions.find? fun f => f.type = type ∧ f.inst = inst

/-- `usbg_get_config`; the label may be the null pointer. -/
def usbgGetConfig (g : Gadget) (id : ℤ) (label : Option CStr) : Option Config :=
  g.configs.find? fun c => c.id = id ∧ (label = none ∨ label = some c.label)

/-- `usbg_get_udc` -/
def usbgGetUdc (s : State) (name : CStr) : Option Udc := s.udcs.find? (·.name = name)

/-- `usbg_get_binding` -/
def usbgGetBinding (c : Config) (name : CStr) : Option Binding :=
  c.bindings.find? (·.name = name)

/-- `usbg_get_link_binding` -/
def usbgGetLinkBinding (c : Config) (f : Func) : Option Binding :=
  c.bindings.find? (·.target = f.addr)

/-- `usbg_get_first_udc` -/
def usbgGetFirstUdc (s : State) : Option Udc := s.udcs.head?

/-! ## Following pointers -/

/-- The gadget at an address. -/
def State.gadget? (s : State) (a : Addr) : Option Gadget := s.gadgets.find? (·.addr = a)

/-- The controller at an address. -/
def State.udc? (s : State) (a : Addr) : Option Udc := s.udcs.find? (·.addr = a)

/-- The configuration at an address. -/
def Gadget.config? (g : Gadget) (a : Addr) : Option Config := g.configs.find? (·.addr = a)

/-- The function at an address. -/
def Gadget.function? (g : Gadget) (a : Addr) : Option Func := g.functions.find? (·.addr = a)

/-- Overwrite the gadget with the address of `g`. -/
def State.setGadget (g : Gadget) (s : State) : State :=
  { s with gadgets := s.gadgets.map fun g' => if g'.addr = g.addr then g else g' }

/-- Overwrite the configuration with the address of `c`. -/
def Gadget.setConfig (c : Config) (g : Gadget) : Gadget :=
  { g with configs := g.configs.map fun c' => if c'.addr = c.addr then c else c' }

/-- Overwrite the function with the address of `f`. -/
def Gadget.setFunction (f : Func) (g : Gadget) : Gadget :=
  { g with functions := g.functions.map fun f' => if f'.addr = f.addr then f else f' }

/-- The assignment `u->gadget = g`. -/
def State.setUdcGadget (u : Addr) (g : Option Addr) (s : State) : State :=
  { s with udcs := s.udcs.map fun u' => if u'.addr = u then { u' with gadget := g } else u' }

/-- The assignment `g->udc = u`. -/
def State.setGadgetUdc (g : Addr) (u : Option Addr) (s : State) : State :=
  { s with gadgets := s.gadgets.map fun g' => if g'.addr = g then { g' with udc := u } else g' }

/-- The address is that of a controller of the state. -/
def derefUdc (u : Addr) : On κ State Udc := do
  let s ← self
  deref (s.udc? u)

/-- The address is that of a gadget of the state. -/
def derefGadget (g : Addr) : On κ State Gadget := do
  let s ← self
  deref (s.gadget? g)

variable {α : Type}

lemma derefUdc_some {u : Addr} {ud : Udc} {s : World κ × State} (h : s.2.udc? u = some ud) :
    derefUdc u s = (.ok ud, s) := by
  rw [derefUdc, self_bind_apply, h]
  rfl

lemma derefUdc_none {u : Addr} {s : World κ × State} (h : s.2.udc? u = none) :
    derefUdc u s = (.undef, s) := by
  rw [derefUdc, self_bind_apply, h]
  rfl

lemma derefGadget_some {g : Addr} {gad : Gadget} {s : World κ × State}
    (h : s.2.gadget? g = some gad) : derefGadget g s = (.ok gad, s) := by
  rw [derefGadget, self_bind_apply, h]
  rfl

lemma derefGadget_none {g : Addr} {s : World κ × State} (h : s.2.gadget? g = none) :
    derefGadget g s = (.undef, s) := by
  rw [derefGadget, self_bind_apply, h]
  rfl

/-- Run a function on the gadget at an address. -/
def onGadget (a : Addr) (m : On κ Gadget α) : On κ State α :=
  zoom (fun s => (s.2.gadget? a).map (s.1, ·)) (fun t s => (t.1, s.2.setGadget t.2)) m

/-- Run a function on the configuration at an address. -/
def onConfig (a : Addr) (m : On κ Config α) : On κ Gadget α :=
  zoom (fun s => (s.2.config? a).map (s.1, ·)) (fun t s => (t.1, s.2.setConfig t.2)) m

/-- Run a function on the function at an address. -/
def onFunction (a : Addr) (m : On κ Func α) : On κ Gadget α :=
  zoom (fun s => (s.2.function? a).map (s.1, ·)) (fun t s => (t.1, s.2.setFunction t.2)) m

lemma ends_onConfig {a : Addr} {m : On κ Config α} {w : World κ} {g : Gadget} {c : Config}
    {Q : α → World κ × Gadget → Prop} {E : UsbgError → World κ × Gadget → Prop} {U : Prop}
    (hc : g.config? a = some c)
    (h : Ends (fun x t => Q x (t.1, g.setConfig t.2)) (fun e t => E e (t.1, g.setConfig t.2)) U (m (w, c))) :
    Ends Q E U (onConfig a m (w, g)) :=
  Ends.zoom (by rw [hc]; rfl) h

lemma ends_onFunction {a : Addr} {m : On κ Func α} {w : World κ} {g : Gadget} {f : Func}
    {Q : α → World κ × Gadget → Prop} {E : UsbgError → World κ × Gadget → Prop} {U : Prop}
    (hf : g.function? a = some f)
    (h : Ends (fun x t => Q x (t.1, g.setFunction t.2)) (fun e t => E e (t.1, g.setFunction t.2)) U
      (m (w, f))) :
    Ends Q E U (onFunction a m (w, g)) :=
  Ends.zoom (by rw [hf]; rfl) h

end Libusbgx
