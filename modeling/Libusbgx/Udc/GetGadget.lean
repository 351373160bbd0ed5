import Libusbgx.Base.Keyed
import Libusbgx.Frame

/-!
# Asking a controller for its gadget

`usbg_get_udc_gadget` asks `usbg_get_gadget_udc` whether the kernel has taken the gadget off
its controller.  Both clear the two ends of the link, and the second clearing goes through the
pointer that the first one has already set to null.
-/

namespace Libusbgx

open Prog

variable {κ : Type} (K : Kernel κ)

/-! ## The two ends of a link -/

/-- The controller that the gadget at an address remembers. -/
def State.udcOf (s : State) (g : Addr) : Option Addr := (s.gadget? g).bind Gadget.udc

/-- The gadget that the controller at an address remembers. -/
def State.gadgetOf (s : State) (u : Addr) : Option Addr := (s.udc? u).bind Udc.gadget

section Ends

variable {s : State} {g u : Addr} {v : Option Addr}

lemma State.udc?_setUdcGadget (a : Addr) :
    (s.setUdcGadget u v).udc? a =
      (s.udc? a).map fun u' => if u'.addr = u then { u' with gadget := v } else u' :=
  find?_key_map (fun x => by by_cases h : x.addr = u <;> simp [h]) s.udcs a

lemma State.gadget?_setGadgetUdc (a : Addr) :
    (s.setGadgetUdc g v).gadget? a =
      (s.gadget? a).map fun g' => if g'.addr = g then { g' with udc := v } else g' :=
  find?_key_map (fun x => by by_cases h : x.addr = g <;> simp [h]) s.gadgets a

@[simp] lemma State.udcOf_setUdcGadget : (s.setUdcGadget u v).udcOf = s.udcOf := rfl

@[simp] lemma State.gadgetOf_setGadgetUdc : (s.setGadgetUdc g v).gadgetOf = s.gadgetOf := rfl

@[simp] lemma State.udc?_setGadgetUdc : (s.setGadgetUdc g v).udc? = s.udc? := rfl

@[simp] lemma State.gadget?_setUdcGadget : (s.setUdcGadget u v).gadget? = s.gadget? := rfl

lemma State.gadgetOf_setUdcGadget {ud : Udc} (h : s.udc? u = some ud) :
    (s.setUdcGadget u v).gadgetOf = Function.update s.gadgetOf u v := by
  funext a
  rw [gadgetOf, udc?_setUdcGadget]
  by_cases ha : a = u
  · subst ha
    rw [Function.update_self, h]
    simp [show ud.addr = a from find?_key_key h]
  · rw [Function.update_of_ne ha, gadgetOf]
    cases h' : s.udc? a with
    | none => rfl
    | some ud' =>
      have : ud'.addr ≠ u := fun he => ha ((find?_key_key h').symm.trans he)
      simp [this]

lemma State.udcOf_setGadgetUdc {gad : Gadget} (h : s.gadget? g = some gad) :
    (s.setGadgetUdc g v).udcOf = Function.update s.udcOf g v := by
  funext a
  rw [udcOf, gadget?_setGadgetUdc]
  by_cases ha : a = g
  · subst ha
    rw [Function.update_self, h]
    simp [show gad.addr = a from find?_key_key h]
  · rw [Function.update_of_ne ha, udcOf]
    cases h' : s.gadget? a with
    | none => rfl
    | some gad' =>
      have : gad'.addr ≠ g := fun he => ha ((find?_key_key h').symm.trans he)
      simp [this]

end Ends

/-! ## The call -/

section Run

variable {w w' : World κ} {s : State} {g u : Addr} {gad : Gadget} {ud : Udc} {e : UsbgError}
  {buf : CStr} (hg : s.gadget? g = some gad) (hgu : gad.udc = some u) (hu : s.udc? u = some ud)

include hg hgu

/-- When the UDC file cannot be read, `usbg_get_gadget_udc` changes nothing. -/
lemma usbgGetGadgetUdc_fail
    (hr : usbgReadString K gad.path gad.name udcFile w = (.fail e, w')) :
    usbgGetGadgetUdc K g (w, s) = (.ok none, (w', s)) := by
  rw [usbgGetGadgetUdc, bind_ok (derefGadget_some hg), hgu]
  exact bind_ok (attempt_fail (io_fail hr))

include hu

/-- When the UDC file holds the name of the controller, it changes nothing either. -/
lemma usbgGetGadgetUdc_same
    (hr : usbgReadString K gad.path gad.name udcFile w = (.ok ud.name, w')) :
    usbgGetGadgetUdc K g (w, s) = (.ok (some u), (w', s)) := by
  rw [usbgGetGadgetUdc, bind_ok (derefGadget_some hg), hgu]
  refine (bind_ok (attempt_ok (io_ok hr))).trans ?_
  refine (bind_ok (derefUdc_some hu)).trans ?_
  rw [if_pos rfl]
  rfl

/-- When the UDC file holds something else, it clears both ends. -/
lemma usbgGetGadgetUdc_other
    (hr : usbgReadString K gad.path gad.name udcFile w = (.ok buf, w')) (hne : buf ≠ ud.name) :
    usbgGetGadgetUdc K g (w, s) =
      (.ok none, (w', (s.setUdcGadget u none).setGadgetUdc g none)) := by
  rw [usbgGetGadgetUdc, bind_ok (derefGadget_some hg), hgu]
  refine (bind_ok (attempt_ok (io_ok hr))).trans ?_
  refine (bind_ok (derefUdc_some hu)).trans ?_
  rw [if_neg (Ne.symm hne)]
  rfl

omit hg hgu in
/-- What `usbg_get_udc_gadget` does when its callee has found a controller. -/
lemma usbgGetUdcGadget_some (hug : ud.gadget = some g) {u' : Addr} {t : World κ × State}
    (h : usbgGetGadgetUdc K g (w, s) = (.ok (some u'), t)) :
    usbgGetUdcGadget K u (w, s) = (derefUdc u >>= fun udc => pure udc.gadget : On κ State (Option Addr)) t := by
  refine (bind_ok (derefUdc_some hu)).trans ?_
  cases ud
  obtain rfl : _ = some g := hug
  exact bind_ok h

omit hg hgu in
/-- And when it has found none. -/
lemma usbgGetUdcGadget_none (hug : ud.gadget = some g) {t : World κ × State}
    (h : usbgGetGadgetUdc K g (w, s) = (.ok none, t)) :
    usbgGetUdcGadget K u (w, s) = (derefUdc u >>= fun udc => deref udc.gadget >>= fun g =>
      derefGadget g >>= fun _ => update (State.setGadgetUdc g none) >>= fun _ =>
      update (State.setUdcGadget u none) >>= fun _ => pure none : On κ State (Option Addr)) t := by
  refine (bind_ok (derefUdc_some hu)).trans ?_
  cases ud
  obtain rfl : _ = some g := hug
  exact bind_ok h

end Run

/-- What a caller of `usbg_get_udc_gadget(u)` may expect when `u` and `g` remember each other:
no undefined behaviour; the gadget and both links when the UDC file of the gadget `gad` holds
the name of the controller `ud`; and otherwise null, with both links gone. -/
def UdcGadgetTruthful (u g : Addr) (ud : Udc) (gad : Gadget) (t : World κ × State) : Prop :=
  (usbgGetUdcGadget K u t).1 ≠ .undef ∧
  ((usbgReadString K gad.path gad.name udcFile t.1).1 = .ok ud.name →
    (usbgGetUdcGadget K u t).1 = .ok (some g) ∧
    (usbgGetUdcGadget K u t).2.2.udcOf g = some u ∧
    (usbgGetUdcGadget K u t).2.2.gadgetOf u = some g) ∧
  ((usbgReadString K gad.path gad.name udcFile t.1).1 ≠ .ok ud.name →
    (usbgGetUdcGadget K u t).1 = .ok none ∧
    (usbgGetUdcGadget K u t).2.2.udcOf g = none ∧
    (usbgGetUdcGadget K u t).2.2.gadgetOf u = none)

/-- The call meets the expectation exactly when the UDC file cannot be read or holds the name
of the controller.  After any other content it dereferences a null pointer. -/
theorem udcGadgetTruthful_iff (w : World κ) (s : State) (u g : Addr) (ud : Udc) (gad : Gadget)
    (hu : s.udc? u = some ud) (hg : s.gadget? g = some gad) (hug : ud.gadget = some g)
    (hgu : gad.udc = some u) :
    UdcGadgetTruthful K u g ud gad (w, s) ↔
      ∀ buf, (usbgReadString K gad.path gad.name udcFile w).1 = .ok buf → buf = ud.name := by
  have hudcOf : s.udcOf g = some u := by rw [State.udcOf, hg]; exact hgu
  have hgadgetOf : s.gadgetOf u = some g := by rw [State.gadgetOf, hu]; exact hug
  rcases hr : usbgReadString K gad.path gad.name udcFile w with ⟨buf | e | _, w'⟩
  · by_cases hbuf : buf = ud.name
    · -- the gadget is still on the controller
      subst hbuf
      have h : usbgGetUdcGadget K u (w, s) = (.ok (some g), (w', s)) := by
        rw [usbgGetUdcGadget_some K hu hug (usbgGetGadgetUdc_same K hg hgu hu hr)]
        refine (bind_ok (derefUdc_some hu)).trans ?_
        rw [hug]
        rfl
      rw [UdcGadgetTruthful, h, hr]
      simp [hudcOf, hgadgetOf]
    · -- the callee has cleared `u->gadget`, through which the caller goes on
      have h : (usbgGetUdcGadget K u (w, s)).1 = .undef := by
        rw [usbgGetUdcGadget_none K hu hug (usbgGetGadgetUdc_other K hg hgu hu hr hbuf)]
        have hud : ((s.setUdcGadget u none).setGadgetUdc g none).udc? u =
            some { ud with gadget := none } := by
          rw [State.udc?_setGadgetUdc, State.udc?_setUdcGadget, hu]
          simp [show ud.addr = u from find?_key_key hu]
        exact congrArg Prod.fst (bind_ok (derefUdc_some (s := (w', (s.setUdcGadget u none).setGadgetUdc g none)) hud))
      rw [UdcGadgetTruthful]
      constructor
      · intro ht
        exact absurd h ht.1
      · intro hall
        exact absurd (hall buf rfl) hbuf
  · -- both ends are cleared here
    have h : usbgGetUdcGadget K u (w, s) =
        (.ok none, (w', (s.setGadgetUdc g none).setUdcGadget u none)) := by
      rw [usbgGetUdcGadget_none K hu hug (usbgGetGadgetUdc_fail K hg hgu hr)]
      refine (bind_ok (derefUdc_some hu)).trans ?_
      rw [hug]
      exact bind_ok (derefGadget_some hg)
    rw [UdcGadgetTruthful, h, hr]
    have hu' : (s.setGadgetUdc g none).udc? u = some ud := hu
    simp [State.gadgetOf_setUdcGadget hu', State.udcOf_setGadgetUdc hg]
  · exact absurd (by rw [hr]) (defined_usbgReadString w)

/-! ### A gadget on a controller -/

/-- A system in which directories and files never change and every call succeeds. -/
def fixedKernel (dirs : Path → List CStr) (file : Path → CStr) : Kernel Unit where
  call c k := (match c with
    | .scandir p => .ok ((dirs p).map fun name => { name, isLink := false })
    | .readlink _ => .ok []
    | .read p => .ok (file p)
    | .nftw _ => .ok []
    | .opendir _ | .write _ _ | .mkdir _ | .rmdir _ | .unlink _ | .symlink _ _ | .stat _
    | .remove _ => .ok (), k)
  stale _ := []

/-- A controller with the gadget at the address 1. -/
def boundUdc : Udc := { addr := 0, name := "dummy_udc".toList, gadget := some 1 }

/-- The gadget on that controller. -/
def boundGadget : Gadget :=
  { Gadget.allocated 1 ["/cfg".toList, gadgetsDir] "g1".toList with udc := some 0 }

/-- The state with the two. -/
def boundState : State :=
  { path := ["/cfg".toList, gadgetsDir], configfsPath := "/cfg".toList, gadgets := [boundGadget],
    udcs := [boundUdc], lastFailedImport := none }

/-- While the kernel leaves the gadget alone, the answer is right. -/
theorem udcGadgetTruthful_attached :
    UdcGadgetTruthful (fixedKernel (fun _ => []) fun _ => "dummy_udc\n".toList) 0 1 boundUdc
      boundGadget ({ sys := (), next := 2 }, boundState) :=
  (udcGadgetTruthful_iff _ { sys := (), next := 2 } boundState 0 1 boundUdc boundGadget rfl rfl rfl
    rfl).mpr fun _ h => (Outcome.ok.inj h).symm

/-- Once the kernel has detached the gadget, the call has no meaning. -/
theorem udcGadgetTruthful_fails :
    ¬ ∀ (K : Kernel Unit) (w : World Unit) (s : State) (u g : Addr) (ud : Udc) (gad : Gadget),
      s.udc? u = some ud → s.gadget? g = some gad → ud.gadget = some g → gad.udc = some u →
      UdcGadgetTruthful K u g ud gad (w, s) := by
  intro h
  have hd := h (fixedKernel (fun _ => []) fun _ => "\n".toList) { sys := (), next := 2 } boundState
    0 1 boundUdc boundGadget rfl rfl rfl rfl
  exact hd.1 rfl

end Libusbgx
