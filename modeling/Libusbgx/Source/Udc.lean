import Libusbgx.Source.Parse

/-!
# Gadgets and their controllers

The link between a gadget and the controller it is bound to is kept at both ends, in `g->udc`
and in `u->gadget`.  The kernel can take a gadget off its controller at any time, which the
library only notices when it reads the UDC file again.
-/

namespace Libusbgx

open Prog

variable {κ : Type} (K : Kernel κ)

/-- `usbg_get_gadget_udc` -/
def usbgGetGadgetUdc (g : Addr) : On κ State (Option Addr) := do
  let gad ← derefGadget g
  match gad.udc with
  | none => pure none
  | some u =>
    match ← attempt (io (usbgReadString K gad.path gad.name udcFile)) with
    | .error _ => pure none
    | .ok buf =>
      let udc ← derefUdc u
      if udc.name = buf then pure (some u)
      else
        update (State.setUdcGadget u none)
        update (State.setGadgetUdc g none)
        pure none

/-- `usbg_get_udc_gadget` -/
def usbgGetUdcGadget (u : Addr) : On κ State (Option Addr) := do
  let udc ← derefUdc u
  match udc.gadget with
  | none => pure none
  | some g =>
    match ← usbgGetGadgetUdc K g with
    | some _ =>
      let udc ← derefUdc u
      pure udc.gadget
    | none =>
      -- `u->gadget->udc = NULL`, with `u->gadget` as it is after the call
      let udc ← derefUdc u
      let g ← deref udc.gadget
      let _ ← derefGadget g
      update (State.setGadgetUdc g none)
      update (State.setUdcGadget u none)
      pure none

/-- `usbg_enable_gadget`; without a controller the first one is taken. -/
def usbgEnableGadget (g : Addr) (udc : Option Addr) : On κ State Unit := do
  let s ← self
  let u ← (match udc.or ((usbgGetFirstUdc s).map Udc.addr) with
    | some u => pure u
    | none => fail .invalidParam)
  let gad ← derefGadget g
  let udc ← derefUdc u
  io (usbgWriteString K gad.path gad.name udcFile (some udc.name))
  whenSome (fun old => do
    let _ ← derefUdc old
    update (State.setUdcGadget old none)) gad.udc
  update (State.setGadgetUdc g (some u))
  update (State.setUdcGadget u (some g))

/-- `usbg_disable_gadget` -/
def usbgDisableGadget (g : Addr) : On κ State Unit := do
  let gad ← derefGadget g
  io (usbgWriteString K gad.path gad.name udcFile (some "\n".toList))
  whenSome (fun old => do
    let _ ← derefUdc old
    update (State.setUdcGadget old none)) gad.udc
  update (State.setGadgetUdc g none)

end Libusbgx
