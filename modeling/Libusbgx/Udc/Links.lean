import Libusbgx.Base.Matched
import Libusbgx.Udc.GetGadget

/-!
# The links between gadgets and controllers

A gadget and the controller it is bound to remember each other.  Here the two memories are
followed through the calls that create, bind, unbind, query and remove gadgets, over a system
that may answer every call as it likes.  They stay in step in every run in which no call goes
down one of three paths: binding a controller that another gadget still remembers, removing a
gadget that is bound, and creating a gadget whose UDC file already names a controller.
-/

namespace Libusbgx

open Prog

variable {κ : Type}

/-- The links of a state are in step: `g->udc == u` if and only if `u->gadget == g`, and every
gadget that a controller remembers is in the list. -/
def UdcLinksAgree (s : State) : Prop :=
  (∀ g ∈ s.gadgets, ∀ u ∈ s.udcs, g.udc = some u.addr ↔ u.gadget = some g.addr) ∧
  ∀ u ∈ s.udcs, ∀ a, u.gadget = some a → ∃ g ∈ s.gadgets, g.addr = a

/-- What holds between the calls. -/
structure LinkInv (t : World κ × State) : Prop where
  gadgetAddrs : KeysNodup Gadget.addr t.2.gadgets
  udcAddrs : KeysNodup Udc.addr t.2.udcs
  fresh : ∀ a ∈ t.2.gadgets.map Gadget.addr, a < t.1.next
  matched : Matched t.2.udcOf t.2.gadgetOf

namespace LinkInv

variable {w w' : World κ} {s s' : State}

theorem udcLinksAgree {t : World κ × State} (h : LinkInv t) : UdcLinksAgree t.2 := by
  have hgad : ∀ g ∈ t.2.gadgets, t.2.udcOf g.addr = g.udc := fun g hg => by
    rw [State.udcOf, State.gadget?, (find?_key_eq_some h.gadgetAddrs).mpr ⟨hg, rfl⟩]
    rfl
  have hudc : ∀ u ∈ t.2.udcs, t.2.gadgetOf u.addr = u.gadget := fun u hu => by
    rw [State.gadgetOf, State.udc?, (find?_key_eq_some h.udcAddrs).mpr ⟨hu, rfl⟩]
    rfl
  constructor
  · intro g hg u hu
    rw [← hgad g hg, ← hudc u hu]
    exact h.matched _ _
  · intro u hu a ha
    have hof : t.2.udcOf a = some u.addr := (h.matched _ _).mpr ((hudc u hu).trans ha)
    obtain ⟨g, hg, -⟩ := Option.bind_eq_some_iff.mp hof
    exact ⟨g, find?_key_mem hg, find?_key_key hg⟩

/-- Links may change as long as they stay matched. -/
lemma relink (h : LinkInv (w, s)) (hg : s'.gadgets.map Gadget.addr = s.gadgets.map Gadget.addr)
    (hu : s'.udcs.map Udc.addr = s.udcs.map Udc.addr) (hn : w.next ≤ w'.next)
    (hm : Matched s'.udcOf s'.gadgetOf) : LinkInv (w', s') where
  gadgetAddrs := by
    show (s'.gadgets.map Gadget.addr).Nodup
    rw [hg]
    exact h.gadgetAddrs
  udcAddrs := by
    show (s'.udcs.map Udc.addr).Nodup
    rw [hu]
    exact h.udcAddrs
  fresh a ha := by
    rw [hg] at ha
    exact lt_of_lt_of_le (h.fresh a ha) hn
  matched := hm

/-- The world may go on. -/
lemma world (h : LinkInv (w, s)) (hn : w.next ≤ w'.next) : LinkInv (w', s) :=
  h.relink rfl rfl hn h.matched

/-- A gadget at a new address is linked to nothing. -/
lemma udcOf_fresh (h : LinkInv (w, s)) {a : Addr} (ha : w.next ≤ a) : s.udcOf a = none := by
  have : s.gadget? a = none := find?_key_eq_none.mpr fun g hg he =>
    absurd (h.fresh a (he ▸ List.mem_map_of_mem hg)) (not_lt.mpr ha)
  rw [State.udcOf, this]
  rfl

end LinkInv

lemma State.addrs_setUdcGadget (s : State) (u : Addr) (v : Option Addr) :
    (s.setUdcGadget u v).udcs.map Udc.addr = s.udcs.map Udc.addr := by
  rw [setUdcGadget, List.map_map]
  refine List.map_congr_left fun x _ => ?_
  by_cases hx : x.addr = u <;> simp [hx]

lemma State.addrs_setGadgetUdc (s : State) (g : Addr) (v : Option Addr) :
    (s.setGadgetUdc g v).gadgets.map Gadget.addr = s.gadgets.map Gadget.addr := by
  rw [setGadgetUdc, List.map_map]
  refine List.map_congr_left fun x _ => ?_
  by_cases hx : x.addr = g <;> simp [hx]

/-- A function that makes system calls and allocates hands out addresses in order. -/
lemma next_le {α : Type} {m : Io κ α} {w w' : World κ} {o : Outcome UsbgError α}
    (h : m w = (o, w')) (hm : ∀ n, Keeps (fun w => n ≤ w.next) m) : w.next ≤ w'.next := by
  have := hm w.next w (le_refl _)
  rw [h] at this
  exact this

variable (K : Kernel κ)

/-! ## Binding -/

/-- The controller that `usbg_enable_gadget` takes. -/
def chosenUdc (udc : Option Addr) (s : State) : Option Addr :=
  udc.or ((usbgGetFirstUdc s).map Udc.addr)

/-- If the name of the controller can be written, no other gadget remembers the controller. -/
def EnableSafe (g : Addr) (udc : Option Addr) (t : World κ × State) : Prop :=
  ∀ gad u ud, t.2.gadget? g = some gad → chosenUdc udc t.2 = some u → t.2.udc? u = some ud →
    (usbgWriteString K gad.path gad.name udcFile (some ud.name) t.1).1 = .ok () →
    ud.gadget = none ∨ ud.gadget = some g

/-- The state after the old link of a gadget has been cleared at the end of the controller: the
gadget is about to be given a new value for its own end. -/
structure ClearedOld (s : State) (g : Addr) (s' : State) : Prop where
  gadgets : s'.gadgets = s.gadgets
  udcAddrs : s'.udcs.map Udc.addr = s.udcs.map Udc.addr
  matched : Matched (Function.update s'.udcOf g none) s'.gadgetOf
  free : ∀ u, s.gadgetOf u = none ∨ s.gadgetOf u = some g → s'.gadgetOf u = none

/-- The step with which both `usbg_enable_gadget` and `usbg_disable_gadget` clear
`g->udc->gadget`. -/
lemma clearOld_ends {w : World κ} {s : State} {g : Addr} {gad : Gadget}
    {E : UsbgError → World κ × State → Prop} (hm : Matched s.udcOf s.gadgetOf)
    (hg : s.gadget? g = some gad) :
    Ends (fun _ t => t.1 = w ∧ ClearedOld s g t.2) E True (whenSome (fun old => do
      let _ ← derefUdc old
      update (State.setUdcGadget old none)) gad.udc (w, s)) := by
  have hof : s.udcOf g = gad.udc := by rw [State.udcOf, hg]; rfl
  cases hold : gad.udc with
  | none =>
    refine ⟨rfl, rfl, rfl, ?_, fun u hu => ?_⟩
    · rw [← hold, ← hof, Function.update_eq_self]
      exact hm
    · rcases hu with hu | hu
      · exact hu
      · have := (hm g u).mpr hu
        rw [hof, hold] at this
        simp at this
  | some old =>
    cases hud : s.udc? old with
    | none => exact Ends.of_eq (bind_undef (derefUdc_none hud)) trivial
    | some ud =>
      refine Ends.of_eq (bind_ok (derefUdc_some hud)) ?_
      refine ⟨rfl, rfl, s.addrs_setUdcGadget .., ?_, fun u hu => ?_⟩
      · rw [State.gadgetOf_setUdcGadget hud]
        exact hm.unlink (hof.trans hold)
      · rw [State.gadgetOf_setUdcGadget hud]
        by_cases huo : u = old
        · rw [huo, Function.update_self]
        · rw [Function.update_of_ne huo]
          rcases hu with hu | hu
          · exact hu
          · have := (hm g u).mpr hu
            rw [hof, hold] at this
            exact absurd (Option.some.inj this).symm huo

/-- Enabling keeps the links in step if it does not take the controller of another gadget. -/
lemma usbgEnableGadget_linkInv {t : World κ × State} {g : Addr} {udc : Option Addr}
    (h : LinkInv t) (hsafe : EnableSafe K g udc t) :
    Ends (fun _ => LinkInv) (fun _ => LinkInv) True (usbgEnableGadget K g udc t) := by
  obtain ⟨w, s⟩ := t
  rw [usbgEnableGadget, self_bind_apply]
  cases hc : chosenUdc udc s with
  | none =>
    rw [chosenUdc] at hc
    simp only [hc, fail_bind]
    exact h
  | some u =>
    have hsafe := fun gad ud hg => hsafe gad u ud hg hc
    rw [chosenUdc] at hc
    simp only [hc, pure_bind]
    cases hg : s.gadget? g with
    | none => exact Ends.of_eq (bind_undef (derefGadget_none hg)) trivial
    | some gad =>
      refine Ends.of_eq (bind_ok (derefGadget_some hg)) ?_
      cases hud : s.udc? u with
      | none => exact Ends.of_eq (bind_undef (derefUdc_none hud)) trivial
      | some ud =>
        refine Ends.of_eq (bind_ok (derefUdc_some hud)) ?_
        rcases hw : usbgWriteString K gad.path gad.name udcFile (some ud.name) w with
          ⟨_ | e | _, w'⟩
        all_goals
          have hn := next_le hw fun n => (stable_next K n).keeps_usbgWriteString List.nil_prefix
        · refine Ends.of_eq (bind_ok (io_ok hw)) (Ends.bind (clearOld_ends h.matched hg) ?_)
          rintro _ ⟨w₁, s'⟩ ⟨rfl, hs'⟩
          -- the controller that is linked now was linked to no other gadget
          have hfree : s.gadgetOf u = none ∨ s.gadgetOf u = some g := by
            rw [State.gadgetOf, hud]
            exact hsafe gad ud hg hud (by rw [hw])
          have hg' : s'.gadget? g = some gad := by rw [State.gadget?, hs'.gadgets]; exact hg
          have hu' : ∃ ud', (s'.setGadgetUdc g (some u)).udc? u = some ud' :=
            find?_key_isSome (List.mem_map.mp (hs'.udcAddrs ▸
              List.mem_map.mpr ⟨ud, find?_key_mem hud, find?_key_key hud⟩))
          obtain ⟨ud', hud'⟩ := hu'
          show LinkInv (w₁, (s'.setGadgetUdc g (some u)).setUdcGadget u (some g))
          refine h.relink ?_ ?_ hn ?_
          · show (s'.setGadgetUdc g (some u)).gadgets.map Gadget.addr = _
            rw [State.addrs_setGadgetUdc, hs'.gadgets]
          · rw [State.addrs_setUdcGadget]
            exact hs'.udcAddrs
          · rw [State.udcOf_setUdcGadget, State.udcOf_setGadgetUdc hg',
              State.gadgetOf_setUdcGadget hud', State.gadgetOf_setGadgetUdc]
            have := hs'.matched.link (Function.update_self ..) (hs'.free u hfree)
            rw [Function.update_idem] at this
            exact this
        · exact Ends.of_eq (bind_fail (io_fail hw)) (h.world hn)
        · exact Ends.of_eq (bind_undef (io_undef hw)) trivial

/-- Disabling keeps the links in step. -/
lemma usbgDisableGadget_linkInv {t : World κ × State} {g : Addr} (h : LinkInv t) :
    Ends (fun _ => LinkInv) (fun _ => LinkInv) True (usbgDisableGadget K g t) := by
  obtain ⟨w, s⟩ := t
  rw [usbgDisableGadget]
  cases hg : s.gadget? g with
  | none => exact Ends.of_eq (bind_undef (derefGadget_none hg)) trivial
  | some gad =>
    refine Ends.of_eq (bind_ok (derefGadget_some hg)) ?_
    rcases hw : usbgWriteString K gad.path gad.name udcFile (some "\n".toList) w with
      ⟨_ | e | _, w'⟩
    all_goals
      have hn := next_le hw fun n => (stable_next K n).keeps_usbgWriteString List.nil_prefix
    · refine Ends.of_eq (bind_ok (io_ok hw)) (Ends.bind (clearOld_ends h.matched hg) ?_)
      rintro _ ⟨w₁, s'⟩ ⟨rfl, hs'⟩
      have hg' : s'.gadget? g = some gad := by rw [State.gadget?, hs'.gadgets]; exact hg
      refine h.relink ?_ hs'.udcAddrs hn ?_
      · rw [State.addrs_setGadgetUdc, hs'.gadgets]
      · rw [State.udcOf_setGadgetUdc hg']
        exact hs'.matched
    · exact Ends.of_eq (bind_fail (io_fail hw)) (h.world hn)
    · exact Ends.of_eq (bind_undef (io_undef hw)) trivial

/-- Querying keeps the links in step, whatever the UDC file holds. -/
lemma usbgGetGadgetUdc_linkInv {t : World κ × State} {g : Addr} (h : LinkInv t) :
    Ends (fun _ => LinkInv) (fun _ => LinkInv) True (usbgGetGadgetUdc K g t) := by
  obtain ⟨w, s⟩ := t
  cases hg : s.gadget? g with
  | none =>
    rw [usbgGetGadgetUdc]
    exact Ends.of_eq (bind_undef (derefGadget_none hg)) trivial
  | some gad =>
    have hof : s.udcOf g = gad.udc := by rw [State.udcOf, hg]; rfl
    cases hgu : gad.udc with
    | none =>
      rw [usbgGetGadgetUdc, bind_ok (derefGadget_some hg), hgu]
      exact h
    | some u =>
      have hmem : s.gadgetOf u = some g := (h.matched _ _).mp (hof.trans hgu)
      obtain ⟨ud, hud, -⟩ := Option.bind_eq_some_iff.mp hmem
      rcases hr : usbgReadString K gad.path gad.name udcFile w with ⟨buf | e | _, w'⟩
      all_goals
        have hn := next_le hr fun n => (stable_next K n).keeps_usbgReadString List.nil_prefix
      · by_cases hbuf : buf = ud.name
        · subst hbuf
          rw [usbgGetGadgetUdc_same K hg hgu hud hr]
          exact h.world hn
        · rw [usbgGetGadgetUdc_other K hg hgu hud hr hbuf]
          refine h.relink ?_ (s.addrs_setUdcGadget ..) hn ?_
          · rw [State.addrs_setGadgetUdc]
            rfl
          · rw [State.udcOf_setGadgetUdc (s := s.setUdcGadget u none) hg,
              State.udcOf_setUdcGadget, State.gadgetOf_setGadgetUdc,
              State.gadgetOf_setUdcGadget hud]
            exact h.matched.unlink (hof.trans hgu)
      · rw [usbgGetGadgetUdc_fail K hg hgu hr]
        exact h.world hn
      · exact absurd (by rw [hr]) (defined_usbgReadString w)

/-! ## Removing -/

variable (ops : FunctionType → FunctionOps κ)

/-- If the directory of the gadget is removed in the end, the gadget is not bound. -/
def RmGadgetSafe (g : Addr) (opts : RmOpts) (t : World κ × State) : Prop :=
  ∀ gad t', t.2.gadget? g = some gad →
    (when opts (onGadget g (rmGadgetContent K ops)) : On κ State Unit) t = (.ok (), t') →
    (usbgRmDir K gad.path gad.name t'.1).1 = .ok () → gad.udc = none

lemma State.gadget?_setGadget (s : State) (gad : Gadget) (a : Addr) :
    (s.setGadget gad).gadget? a =
      (s.gadget? a).map fun g' => if g'.addr = gad.addr then gad else g' :=
  find?_key_map (fun x => by by_cases h : x.addr = gad.addr <;> simp [h]) s.gadgets a

lemma State.addrs_setGadget (s : State) (gad : Gadget) :
    (s.setGadget gad).gadgets.map Gadget.addr = s.gadgets.map Gadget.addr := by
  rw [setGadget, List.map_map]
  refine List.map_congr_left fun x _ => ?_
  by_cases hx : x.addr = gad.addr <;> simp [hx]

lemma State.gadget?_setGadget_self {s : State} {g : Addr} {gad gad' : Gadget}
    (hg : s.gadget? g = some gad) (ha : gad'.addr = gad.addr) :
    (s.setGadget gad').gadget? g = some gad' := by
  rw [gadget?_setGadget, hg]
  simp [ha]

/-- Overwriting a gadget by one with the same address and the same controller changes no
link. -/
lemma State.udcOf_setGadget {s : State} {g : Addr} {gad gad' : Gadget}
    (hg : s.gadget? g = some gad) (hc : gad'.core = gad.core) :
    (s.setGadget gad').udcOf = s.udcOf := by
  have ha : gad'.addr = gad.addr := congrArg Gadget.Core.addr hc
  have hudc : gad'.udc = gad.udc := congrArg Gadget.Core.udc hc
  funext a
  by_cases hag : a = g
  · rw [udcOf, udcOf, hag, gadget?_setGadget_self hg ha, hg]
    exact hudc
  · rw [udcOf, udcOf, gadget?_setGadget]
    cases h : s.gadget? a with
    | none => rfl
    | some g' =>
      have : g'.addr ≠ gad'.addr := by
        rw [ha, show gad.addr = g from find?_key_key hg, show g'.addr = a from find?_key_key h]
        exact hag
      simp [this]

/-- A function that only changes the lists of a gadget keeps the links in step. -/
lemma onGadget_linkInv {α : Type} {m : On κ Gadget α} {t : World κ × State} {g : Addr}
    {gad : Gadget} (h : LinkInv t) (hg : t.2.gadget? g = some gad)
    (hm : ∀ n c, Keeps (OnGadgetCore (fun w => n ≤ w.next) c) m) :
    LinkInv (onGadget g m t).2 ∧
      ∃ gad', (onGadget g m t).2.2.gadget? g = some gad' ∧ gad'.core = gad.core := by
  obtain ⟨w, s⟩ := t
  have hrun : onGadget g m (w, s) =
      ((m (w, gad)).1, ((m (w, gad)).2.1, s.setGadget (m (w, gad)).2.2)) := by
    rw [onGadget, zoom_some (by rw [hg]; rfl)]
  obtain ⟨hn, hc⟩ := hm w.next gad.core (w, gad) ⟨le_refl _, rfl⟩
  rw [hrun]
  refine ⟨h.relink (s.addrs_setGadget _) rfl hn ?_, _,
    State.gadget?_setGadget_self hg (congrArg Gadget.Core.addr hc), hc⟩
  rw [State.udcOf_setGadget hg hc]
  exact h.matched

/-- The last step of a removal: the directory goes, and the gadget with it. -/
lemma rmGadgetDir_linkInv {w : World κ} {s : State} {g : Addr} {gad : Gadget}
    (h : LinkInv (w, s)) (hg : s.gadget? g = some gad)
    (hsafe : (usbgRmDir K gad.path gad.name w).1 = .ok () → gad.udc = none) :
    Ends (fun _ => LinkInv) (fun _ => LinkInv) True
      ((do
        let gad ← derefGadget g
        io (usbgRmDir K gad.path gad.name)
        update fun s => { s with gadgets := s.gadgets.filter (·.addr ≠ g) } : On κ State Unit)
        (w, s)) := by
  refine Ends.of_eq (bind_ok (derefGadget_some hg)) ?_
  rcases hr : usbgRmDir K gad.path gad.name w with ⟨_ | e | _, w'⟩
  · refine Ends.of_eq (bind_ok (io_ok hr)) ?_
    have hnone : s.udcOf g = none := by
      rw [State.udcOf, hg]
      exact hsafe (by rw [hr])
    -- the gadget that goes was bound to no controller, so no link is lost
    have hof : State.udcOf { s with gadgets := s.gadgets.filter (·.addr ≠ g) } = s.udcOf := by
      funext a
      rw [State.udcOf, State.gadget?, find?_key_filter_ne]
      by_cases ha : a = g
      · rw [if_pos ha, ha, hnone]
        rfl
      · rw [if_neg ha]
        rfl
    exact {
      gadgetAddrs := h.gadgetAddrs.filter _
      udcAddrs := h.udcAddrs
      fresh := fun a ha => by
        obtain ⟨x, hx, rfl⟩ := List.mem_map.mp ha
        exact lt_of_lt_of_le (h.fresh _ (List.mem_map_of_mem (List.mem_of_mem_filter hx)))
          (next_le hr fun n => (stable_next K n).keeps_usbgRmDir List.nil_prefix)
      matched := by
        show Matched (State.udcOf { s with gadgets := s.gadgets.filter (·.addr ≠ g) }) s.gadgetOf
        rw [hof]
        exact h.matched }
  · exact Ends.of_eq (bind_fail (io_fail hr))
      (h.world (next_le hr fun n => (stable_next K n).keeps_usbgRmDir List.nil_prefix))
  · exact Ends.of_eq (bind_undef (io_undef hr)) trivial

/-- Removing keeps the links in step if no bound gadget goes away. -/
lemma usbgRmGadget_linkInv {t : World κ × State} {g : Addr} {opts : RmOpts}
    (hops : OpsStable K ops) (h : LinkInv t) (hsafe : RmGadgetSafe K ops g opts t) :
    Ends (fun _ => LinkInv) (fun _ => LinkInv) True (usbgRmGadget K ops g opts t) := by
  cases hg : t.2.gadget? g with
  | none =>
    have hnone : ∀ m : On κ Gadget Unit, onGadget g m t = (.undef, t) := fun m =>
      zoom_none (by rw [hg]; rfl)
    rw [usbgRmGadget]
    by_cases ho : opts = true
    · rw [when_of ho]
      exact Ends.of_eq (bind_undef (hnone _)) trivial
    · rw [when_of_not ho, Prog.pure_bind]
      exact Ends.of_eq (bind_undef (derefGadget_none hg)) trivial
  | some gad =>
    have hsafe := fun t' => hsafe gad t' hg
    rw [usbgRmGadget]
    -- what is left to do after the content of the gadget has gone
    have hpart : LinkInv ((when opts (onGadget g (rmGadgetContent K ops)) : On κ State Unit) t).2 ∧
        ∃ gad', ((when opts (onGadget g (rmGadgetContent K ops)) :
          On κ State Unit) t).2.2.gadget? g = some gad' ∧ gad'.core = gad.core := by
      by_cases ho : opts = true
      · rw [when_of ho]
        exact onGadget_linkInv h hg fun n c => (stable_next K n).keeps_rmGadgetContent hops
      · rw [when_of_not ho]
        exact ⟨h, gad, hg, rfl⟩
    obtain ⟨hinv, gad', hg', hc⟩ := hpart
    rcases hw : (when opts (onGadget g (rmGadgetContent K ops)) : On κ State Unit) t with
      ⟨_ | e | _, t'⟩
    · rw [hw] at hinv hg'
      refine Ends.of_eq (bind_ok hw) (rmGadgetDir_linkInv K hinv hg' fun hr => ?_)
      have hudc : gad'.udc = gad.udc := congrArg Gadget.Core.udc hc
      have hpath : gad'.path = gad.path := congrArg Gadget.Core.path hc
      have hname : gad'.name = gad.name := congrArg Gadget.Core.name hc
      rw [hpath, hname] at hr
      rw [hudc]
      exact hsafe t' hw hr
    · rw [hw] at hinv
      exact Ends.of_eq (bind_fail hw) hinv
    · exact Ends.of_eq (bind_undef hw) trivial

/-! ## Creating -/

/-- The gadget that `usbg_create_empty_gadget` allocates. -/
def newGadget (name : CStr) (udc : Option Addr) (t : World κ × State) : Gadget :=
  { Gadget.allocated t.1.next t.2.path name with udc }

/-- If the UDC file of the new gadget names a controller, that controller is free and the
attributes and strings can be set. -/
def CreateGadgetSafe (name : CStr) (setUp : Gadget → Io κ Unit) (t : World κ × State) : Prop :=
  ∀ w₁ w₂ buf u, usbgGetGadget t.2 name = none → (t.2.path ++ [name]).Fits →
    call K (.mkdir (t.2.path ++ [name])) { t.1 with next := t.1.next + 1 } = (.ok (), w₁) →
    usbgReadString K t.2.path name udcFile w₁ = (.ok buf, w₂) →
    usbgGetUdc t.2 buf = some u →
    u.gadget = none ∧ (setUp (newGadget name (some u.addr) t) w₂).1 = .ok ()

/-- A new gadget in the list brings its own end of a link with it. -/
lemma State.udcOf_insert {s : State} {gad : Gadget} {l : List Gadget}
    (hnew : KeysNodup Gadget.addr (gad :: s.gadgets)) (hl : l.Perm (gad :: s.gadgets)) :
    State.udcOf { s with gadgets := l } = Function.update s.udcOf gad.addr gad.udc := by
  funext a
  rw [udcOf, gadget?, find?_key_perm hnew hl, find?_key_cons]
  by_cases hga : gad.addr = a
  · rw [if_pos hga, hga, Function.update_self]
    rfl
  · rw [if_neg hga, Function.update_of_ne (Ne.symm hga)]
    rfl

/-- A new gadget may be put into the list when the links match with its own end. -/
lemma LinkInv.insert {w w' : World κ} {s s' : State} {gad : Gadget} (h : LinkInv (w, s))
    (hg : s'.gadgets = s.gadgets) (hu : s'.udcs.map Udc.addr = s.udcs.map Udc.addr)
    (ha : gad.addr = w.next) (hn : w.next < w'.next)
    (hm : Matched (Function.update s'.udcOf w.next gad.udc) s'.gadgetOf) :
    LinkInv (w', { s' with gadgets := insertSorted Gadget.name gad s'.gadgets }) := by
  have hnew : KeysNodup Gadget.addr (gad :: s'.gadgets) := by
    rw [hg]
    exact h.gadgetAddrs.cons fun g hg he =>
      absurd (h.fresh _ (List.mem_map_of_mem hg)) (by rw [he, ha]; exact lt_irrefl _)
  refine ⟨hnew.perm insertSorted_perm, ?_, fun a hmem => ?_, ?_⟩
  · show (s'.udcs.map Udc.addr).Nodup
    rw [hu]
    exact h.udcAddrs
  · have hperm : (insertSorted Gadget.name gad s'.gadgets).Perm (gad :: s'.gadgets) :=
      insertSorted_perm
    rcases List.mem_cons.mp ((hperm.map Gadget.addr).mem_iff.mp hmem) with rfl | hmem
    · rw [ha]
      exact hn
    · rw [hg] at hmem
      exact lt_trans (h.fresh a hmem) hn
  · rw [State.udcOf_insert hnew insertSorted_perm, ha]
    exact hm

/-- How `usbg_create_empty_gadget` ends: with the new gadget, and its controller linked to it,
or with an error and the lists as they were. -/
lemma usbgCreateEmptyGadget_ends (name : CStr) (w : World κ) (s : State) :
    Ends (fun gad t => ∃ w₁ buf, (s.path ++ [name]).Fits ∧
        call K (.mkdir (s.path ++ [name])) { w with next := w.next + 1 } = (.ok (), w₁) ∧
        usbgReadString K s.path name udcFile w₁ = (.ok buf, t.1) ∧ w.next < t.1.next ∧
        t.2 = ((usbgGetUdc s buf).elim s fun u => s.setUdcGadget u.addr (some w.next)) ∧
        gad = newGadget name ((usbgGetUdc s buf).map Udc.addr) (w, s))
      (fun _ t => t.2 = s ∧ w.next ≤ t.1.next) True (usbgCreateEmptyGadget K name (w, s)) := by
  rw [usbgCreateEmptyGadget, self_bind_apply]
  refine Ends.bind (R := fun _ t => t = (w, s) ∧ (s.path ++ [name]).Fits)
    (Ends.require (fun hf => ⟨rfl, hf⟩) fun _ => ⟨rfl, le_refl _⟩) ?_
  rintro _ _ ⟨rfl, hfits⟩
  refine Ends.of_eq (bind_ok (io_ok (a := newGadget name none (w, s))
    (w := { w with next := w.next + 1 }) rfl)) ?_
  rcases hk : call K (.mkdir (s.path ++ [name])) { w with next := w.next + 1 } with
    ⟨_ | e | _, w₁⟩
  · have hn₁ : w.next < w₁.next := next_le hk fun n => (stable_next K n).keeps_call List.nil_prefix
    refine Ends.of_eq (bind_ok (io_ok hk)) ?_
    rcases hr : usbgReadString K s.path name udcFile w₁ with ⟨buf | e | _, w₂⟩
    · have hn₂ := next_le hr fun n => (stable_next K n).keeps_usbgReadString List.nil_prefix
      refine Ends.of_eq (bind_ok (io_ok (onFail_ok hr))) ?_
      cases hu : usbgGetUdc s buf with
      | none => exact ⟨w₁, buf, hfits, rfl, hr, lt_of_lt_of_le hn₁ hn₂, by rw [hu]; rfl,
          by rw [hu]; rfl⟩
      | some u => exact ⟨w₁, buf, hfits, rfl, hr, lt_of_lt_of_le hn₁ hn₂, by rw [hu]; rfl,
          by rw [hu]; rfl⟩
    · have hn₂ := next_le hr fun n => (stable_next K n).keeps_usbgReadString List.nil_prefix
      refine Ends.of_eq (bind_fail (io_fail (onFail_fail hr (by simp [tryCall])))) ⟨rfl, ?_⟩
      exact le_of_lt (lt_of_lt_of_le hn₁ hn₂)
    · exact absurd (by rw [hr]) (defined_usbgReadString w₁)
  · have hn₁ : w.next < w₁.next := next_le hk fun n => (stable_next K n).keeps_call List.nil_prefix
    exact Ends.of_eq (bind_fail (io_fail hk)) ⟨rfl, le_of_lt hn₁⟩
  · exact Ends.of_eq (bind_undef (io_undef hk)) trivial

/-- Creating keeps the links in step if the UDC file of the new gadget names no controller, or a
free one and nothing fails after that. -/
lemma createGadgetWith_linkInv {t : World κ × State} {name : CStr} {setUp : Gadget → Io κ Unit}
    (hset : ∀ gad n, Keeps (fun w => n ≤ w.next) (setUp gad)) (h : LinkInv t)
    (hsafe : CreateGadgetSafe K name setUp t) :
    Ends (fun _ => LinkInv) (fun _ => LinkInv) True (createGadgetWith K name setUp t) := by
  obtain ⟨w, s⟩ := t
  rw [createGadgetWith, self_bind_apply]
  refine Ends.bind (R := fun _ t => t = (w, s) ∧ usbgGetGadget s name = none)
    (Ends.require (fun hn => ⟨rfl, hn⟩) fun _ => h) ?_
  rintro _ _ ⟨rfl, hname⟩
  refine Ends.bind ((usbgCreateEmptyGadget_ends K name w s).mono (fun _ _ hq => hq)
    fun _ t' he => ?_) ?_
  · obtain ⟨w', s'⟩ := t'
    obtain ⟨rfl, hn⟩ := he
    exact h.world hn
  rintro gad ⟨w₂, s'⟩ ⟨w₁, buf, hfits, hk, hr, hn₂, rfl, rfl⟩
  have hfresh : s.udcOf w.next = none := h.udcOf_fresh (le_refl _)
  rcases hs : setUp (newGadget name ((usbgGetUdc s buf).map Udc.addr) (w, s)) w₂ with
    ⟨_ | e | _, w₃⟩
  · refine Ends.of_eq (bind_ok (io_ok (onFail_ok hs))) ?_
    have hn₃ : w.next < w₃.next := lt_of_lt_of_le hn₂ (next_le hs (hset _))
    cases hu : usbgGetUdc s buf with
    | none =>
      refine h.insert rfl rfl rfl hn₃ ?_
      show Matched (Function.update s.udcOf w.next none) s.gadgetOf
      rw [← hfresh, Function.update_eq_self]
      exact h.matched
    | some u =>
      have hmem : s.udc? u.addr = some u := (find?_key_eq_some h.udcAddrs).mpr
        ⟨find?_key_mem hu, rfl⟩
      refine h.insert rfl (s.addrs_setUdcGadget ..) rfl hn₃ ?_
      show Matched (Function.update (s.setUdcGadget u.addr (some w.next)).udcOf w.next
        (some u.addr)) (s.setUdcGadget u.addr (some w.next)).gadgetOf
      rw [State.udcOf_setUdcGadget, State.gadgetOf_setUdcGadget hmem]
      refine h.matched.link hfresh ?_
      rw [State.gadgetOf, hmem]
      exact (hsafe w₁ w₂ buf u hname hfits hk hr hu).1
  · -- the new gadget is given up: its UDC file named no controller
    have hnone : usbgGetUdc s buf = none := by
      cases hu : usbgGetUdc s buf with
      | none => rfl
      | some u =>
        have := (hsafe w₁ w₂ buf u hname hfits hk hr hu).2
        rw [hu] at hs
        rw [show setUp (newGadget name (some u.addr) (w, s)) w₂ = (.fail e, w₃) from hs] at this
        simp at this
    rw [hnone] at hs ⊢
    have hrun : onFail (setUp (newGadget name none (w, s)))
        (usbgRmDir K s.path name) w₂ = (.fail e, (usbgRmDir K s.path name w₃).2) :=
      onFail_fail hs (defined_usbgRmDir w₃)
    refine Ends.of_eq (bind_fail (io_fail hrun)) (h.world ?_)
    calc w.next ≤ w₂.next := le_of_lt hn₂
      _ ≤ w₃.next := next_le hs (hset _)
      _ ≤ _ := (stable_next K w₃.next).keeps_usbgRmDir List.nil_prefix w₃ (le_refl _)
  · exact Ends.of_eq (bind_undef (io_undef (by rw [onFail_apply, hs]))) trivial

end Libusbgx
