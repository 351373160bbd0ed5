import Libusbgx.Base.Run
import Libusbgx.Udc.Links

/-!
# Runs of the calls that touch the links

`usbg_init` leaves the links in step if no two gadgets are bound to the same controller, and the
calls that follow keep them so as long as they avoid the three paths that break them.
-/

namespace Libusbgx

open Prog

variable {κ : Type} (K : Kernel κ)

/-! ## After `usbg_init` -/

/-- What holds while the gadgets are read: a controller remembers the last of the gadgets that
are bound to it. -/
structure ParsedLinks (t : World κ × State) : Prop where
  gadgetAddrs : KeysNodup Gadget.addr t.2.gadgets
  udcAddrs : KeysNodup Udc.addr t.2.udcs
  fresh : ∀ g ∈ t.2.gadgets, g.addr < t.1.next
  linked : LastLinked t.2.udcOf t.2.gadgetOf

/-- Reading one gadget links it to the controller that its UDC file names. -/
lemma usbgParseGadget_ends (g : Gadget) (w : World κ) (s : State) :
    Ends (fun g' t => g'.addr = g.addr ∧ w.next ≤ t.1.next ∧
        (g'.udc = none ∧ t.2 = s ∨ ∃ u ud, s.udc? u = some ud ∧ g'.udc = some u ∧
          t.2 = s.setUdcGadget u (some g.addr)))
      (fun _ _ => True) True (usbgParseGadget K g (w, s)) := by
  rw [usbgParseGadget]
  rcases hr : usbgReadString K g.path g.name udcFile w with ⟨buf | e | _, w₁⟩
  · have hn₁ := next_le hr fun n => (stable_next K n).keeps_usbgReadString List.nil_prefix
    refine Ends.of_eq (bind_ok (io_ok hr)) ?_
    rw [self_bind_apply]
    -- whatever the rest of the parser finds, it keeps the address and the controller
    have hrest : ∀ (g : Gadget) (s' : State), Ends (fun g' t => g'.core = g.core ∧
        w.next ≤ t.1.next ∧ t.2 = s') (fun _ _ => True) True
        (io (parseGadgetContent K g) (w₁, s')) := by
      intro g s'
      rw [io_apply]
      refine Ends.intro (fun g' t ht => ?_) (fun _ _ _ => trivial) fun _ _ => trivial
      obtain ⟨ho, rfl⟩ := Prod.mk.inj ht
      exact ⟨yields_parseGadgetContent _ _ _ (Prod.ext ho rfl),
        hn₁.trans ((stable_next K w₁.next).keeps_parseGadgetContent w₁ (le_refl _)), rfl⟩
    cases hu : usbgGetUdc s buf with
    | none =>
      refine (hrest { g with udc := none } s).mono (fun g' t ht => ?_) fun _ _ _ => trivial
      exact ⟨congrArg Gadget.Core.addr ht.1, ht.2.1, .inl ⟨congrArg Gadget.Core.udc ht.1, ht.2.2⟩⟩
    | some u =>
      refine (hrest { g with udc := some u.addr } (s.setUdcGadget u.addr (some g.addr))).mono
        (fun g' t ht => ?_) fun _ _ _ => trivial
      obtain ⟨ud, hud⟩ : ∃ ud, s.udc? u.addr = some ud :=
        find?_key_isSome ⟨u, find?_key_mem hu, rfl⟩
      exact ⟨congrArg Gadget.Core.addr ht.1, ht.2.1,
        .inr ⟨u.addr, ud, hud, congrArg Gadget.Core.udc ht.1, ht.2.2⟩⟩
  · exact Ends.of_eq (bind_fail (io_fail hr)) trivial
  · exact Ends.of_eq (bind_undef (io_undef hr)) trivial

/-- A gadget that has just been read goes to the end of the list. -/
lemma ParsedLinks.append {w w' : World κ} {s s' : State} {gad : Gadget} (h : ParsedLinks (w, s))
    (hg : s'.gadgets = s.gadgets) (hu : s'.udcs.map Udc.addr = s.udcs.map Udc.addr)
    (ha : gad.addr = w.next) (hn : w.next < w'.next)
    (hl : LastLinked (Function.update s'.udcOf w.next gad.udc) s'.gadgetOf) :
    ParsedLinks (w', { s' with gadgets := s'.gadgets ++ [gad] }) := by
  have hnew : KeysNodup Gadget.addr (gad :: s'.gadgets) := by
    rw [hg]
    exact h.gadgetAddrs.cons fun g hg he =>
      absurd (h.fresh g hg) (by rw [he, ha]; exact lt_irrefl _)
  have hperm : (s'.gadgets ++ [gad]).Perm (gad :: s'.gadgets) := List.perm_append_singleton ..
  refine ⟨hnew.perm hperm, ?_, fun g hmem => ?_, ?_⟩
  · show (s'.udcs.map Udc.addr).Nodup
    rw [hu]
    exact h.udcAddrs
  · rcases List.mem_cons.mp (hperm.mem_iff.mp hmem) with rfl | hmem
    · rw [ha]
      exact hn
    · rw [hg] at hmem
      exact lt_trans (h.fresh g hmem) hn
  · rw [State.udcOf_insert hnew hperm, ha]
    exact hl

/-- Reading the gadgets links each to its controller, the later ones last. -/
lemma usbgParseGadgets_ends {path : Path} {t : World κ × State} (h : ParsedLinks t) :
    Ends (fun _ => ParsedLinks) (fun _ _ => True) True (usbgParseGadgets K path t) := by
  have hround : ∀ name, ∀ t : World κ × State, ParsedLinks t → Ends (fun _ => ParsedLinks)
      (fun _ _ => True) True ((do
        let g ← io (usbgAllocateGadget path name)
        let g ← usbgParseGadget K g
        update fun s => { s with gadgets := s.gadgets ++ [g] } : On κ State Unit) t) := by
    rintro name ⟨w, s⟩ h
    have halloc : usbgAllocateGadget path name w =
      (.ok { addr := w.next, name, path, configs := [], functions := [], udc := none,
             osDescBinding := none, lastFailedImport := none },
        { w with next := w.next + 1 }) := rfl
    refine Ends.of_eq (bind_ok (io_ok halloc)) ?_
    refine Ends.bind (usbgParseGadget_ends K _ { w with next := w.next + 1 } s) ?_
    rintro gad ⟨w', s'⟩ ⟨ha, hn, hlink⟩
    -- the address is new, so it is in no list yet
    have hfresh : s.udcOf w.next = none := by
      have : s.gadget? w.next = none := find?_key_eq_none.mpr fun g hg he =>
        absurd (h.fresh g hg) (by rw [he]; exact lt_irrefl _)
      rw [State.udcOf, this]
      rfl
    have hnext : w.next < w'.next := hn
    rcases hlink with ⟨hudc, rfl⟩ | ⟨u, ud, hud, hudc, rfl⟩
    · refine h.append rfl rfl ha hnext ?_
      rw [hudc, ← hfresh, Function.update_eq_self]
      exact h.linked
    · refine h.append rfl (s.addrs_setUdcGadget ..) ha hnext ?_
      rw [hudc, State.udcOf_setUdcGadget, State.gadgetOf_setUdcGadget hud]
      exact h.linked.link hfresh
  rw [usbgParseGadgets]
  rcases hs : scandir K path fileSelect t.1 with ⟨names | e | _, w'⟩
  · have hn := next_le hs fun n => (stable_next K n).keeps_scandir List.nil_prefix
    refine Ends.of_eq (bind_ok (io_ok hs)) (Ends.forEach (fun name _ => hround name) ?_)
    exact ⟨h.gadgetAddrs, h.udcAddrs, fun g hg => lt_of_lt_of_le (h.fresh g hg) hn, h.linked⟩
  · exact Ends.of_eq (bind_fail (io_fail hs)) trivial
  · exact Ends.of_eq (bind_undef (io_undef hs)) trivial

/-- What holds while the controllers are read: no gadget is there yet. -/
structure FreeUdcs (t : World κ × State) : Prop where
  gadgets : t.2.gadgets = []
  udcAddrs : KeysNodup Udc.addr t.2.udcs
  fresh : ∀ u ∈ t.2.udcs, u.addr < t.1.next
  free : ∀ u ∈ t.2.udcs, u.gadget = none

lemma FreeUdcs.parsedLinks {t : World κ × State} (h : FreeUdcs t) : ParsedLinks t := by
  have hgadgetOf : ∀ u, t.2.gadgetOf u = none := by
    intro u
    rw [State.gadgetOf]
    cases hu : t.2.udc? u with
    | none => rfl
    | some ud => exact h.free ud (find?_key_mem hu)
  have hudcOf : ∀ g, t.2.udcOf g = none := by
    intro g
    rw [State.udcOf, State.gadget?, h.gadgets]
    rfl
  refine ⟨?_, h.udcAddrs, ?_, fun a b hb => ?_, fun a b ha => ?_⟩
  · rw [KeysNodup, h.gadgets]
    exact List.nodup_nil
  · rw [h.gadgets]
    simp
  · rw [hgadgetOf] at hb
    simp at hb
  · rw [hudcOf] at ha
    simp at ha

lemma FreeUdcs.world {w w' : World κ} {s : State} (h : FreeUdcs (w, s)) (hn : w.next ≤ w'.next) :
    FreeUdcs (w', s) :=
  ⟨h.gadgets, h.udcAddrs, fun u hu => lt_of_lt_of_le (h.fresh u hu) hn, h.free⟩

/-- Reading the controllers, whether it succeeds or not. -/
lemma keeps_usbgParseUdcs : Keeps FreeUdcs (usbgParseUdcs K) := by
  refine .bind (fun t h => ?_) fun names => .forEach fun name _ => ?_
  · exact FreeUdcs.world h ((stable_next K t.1.next).keeps_scandir List.nil_prefix t.1 (le_refl _))
  · rintro ⟨w, s⟩ h
    have hperm : (s.udcs ++ [(⟨w.next, name, none⟩ : Udc)]).Perm (⟨w.next, name, none⟩ :: s.udcs) :=
      List.perm_append_singleton ..
    have hnew : KeysNodup Udc.addr (⟨w.next, name, none⟩ :: s.udcs) :=
      h.udcAddrs.cons fun u hu he => absurd (h.fresh u hu) (by rw [he]; exact lt_irrefl _)
    refine ⟨h.gadgets, hnew.perm hperm, fun u hu => ?_, fun u hu => ?_⟩
    · rcases List.mem_cons.mp (hperm.mem_iff.mp hu) with rfl | hu
      · exact Nat.lt_succ_self _
      · exact Nat.lt_succ_of_lt (h.fresh u hu)
    · rcases List.mem_cons.mp (hperm.mem_iff.mp hu) with rfl | hu
      · rfl
      · exact h.free u hu

/-- The gadgets of a state are bound to different controllers. -/
def BoundApart (s : State) : Prop :=
  ∀ g ∈ s.gadgets, ∀ g' ∈ s.gadgets, ∀ u, g.udc = some u → g'.udc = some u → g = g'

lemma ParsedLinks.linkInv {t : World κ × State} (h : ParsedLinks t) (hb : BoundApart t.2) :
    LinkInv t where
  gadgetAddrs := h.gadgetAddrs
  udcAddrs := h.udcAddrs
  fresh a ha := by
    obtain ⟨g, hg, rfl⟩ := List.mem_map.mp ha
    exact h.fresh g hg
  matched := h.linked.matched fun a a' b ha ha' => by
    obtain ⟨g, hg, hgb⟩ := Option.bind_eq_some_iff.mp ha
    obtain ⟨g', hg', hgb'⟩ := Option.bind_eq_some_iff.mp ha'
    rw [← show g.addr = a from find?_key_key hg, ← show g'.addr = a' from find?_key_key hg',
      hb g (find?_key_mem hg) g' (find?_key_mem hg') b hgb hgb']

/-- A successful `usbg_init` leaves the links in step if no two gadgets are bound to the same
controller. -/
lemma usbgInit_linkInv {cfg : CStr} {w₀ w : World κ} {s : State}
    (hinit : usbgInit K cfg w₀ = (.ok s, w)) (hb : BoundApart s) : LinkInv (w, s) := by
  have hends : ∀ w₁ s₁, FreeUdcs (w₁, s₁) → Ends (fun _ => ParsedLinks) (fun _ _ => True) True
      (usbgParseState K (w₁, s₁)) := by
    intro w₁ s₁ h
    have hu := (keeps_usbgParseUdcs K).attempt (w₁, s₁) h
    rw [usbgParseState]
    refine Ends.bind (R := fun _ => FreeUdcs) (Ends.intro (fun r t hr => ?_) (fun _ _ _ => trivial)
      fun _ _ => trivial) fun r t ht => ?_
    · rw [hr] at hu
      exact hu
    · refine Ends.bind (R := fun _ => FreeUdcs) ?_ fun _ t ht => ?_
      · cases r with
        | ok _ => exact ht
        | error e => exact Ends.require (fun _ => ht) fun _ => trivial
      · exact usbgParseGadgets_ends K ht.parsedLinks
  obtain ⟨_, w₁, -, hrest⟩ := bind_eq_ok.mp hinit
  obtain ⟨⟨_, s'⟩, w₂, hparse, hret⟩ := bind_eq_ok.mp hrest
  obtain ⟨rfl, rfl⟩ : s' = s ∧ w₂ = w := by simpa using hret
  have h := hends w₁ { path := [cfg, gadgetsDir], configfsPath := cfg, gadgets := [], udcs := [],
                       lastFailedImport := none } ⟨rfl, List.nodup_nil, by simp, by simp⟩
  rw [withNew_eq_ok.mp hparse] at h
  exact h.linkInv hb

/-! ## Runs -/

/-- The calls that touch the links. -/
inductive UdcCall where
  | createGadget (name : CStr) (attrs : Option GadgetAttrs) (strs : Option GadgetStrs)
  | createGadgetVidPid (name : CStr) (idVendor idProduct : UInt16)
  | enableGadget (g : Addr) (udc : Option Addr)
  | disableGadget (g : Addr)
  | getGadgetUdc (g : Addr)
  | rmGadget (g : Addr) (opts : RmOpts)

namespace UdcCall

/-- The call, without the value it returns. -/
def run : UdcCall → On κ State Unit
  | createGadget name attrs strs => do
    let _ ← usbgCreateGadget K name attrs strs
    pure ()
  | createGadgetVidPid name idVendor idProduct => do
    let _ ← usbgCreateGadgetVidPid K name idVendor idProduct
    pure ()
  | enableGadget g udc => usbgEnableGadget K g udc
  | disableGadget g => usbgDisableGadget K g
  | getGadgetUdc g => do
    let _ ← usbgGetGadgetUdc K g
    pure ()
  | rmGadget g opts => usbgRmGadget K (functionOps K) g opts

/-- The call stays off the paths that break the links. -/
def Safe : UdcCall → World κ × State → Prop
  | createGadget name attrs strs =>
    CreateGadgetSafe K name fun gad => do
      whenSome (usbgSetGadgetAttrs K gad) attrs
      whenSome (usbgSetGadgetStrs K gad langUsEng) strs
  | createGadgetVidPid name idVendor idProduct =>
    CreateGadgetSafe K name fun gad => do
      usbgWriteHex16 K gad.path name "idVendor".toList idVendor.toNat
      usbgWriteHex16 K gad.path name "idProduct".toList idProduct.toNat
  | enableGadget g udc => EnableSafe K g udc
  | disableGadget _ => fun _ => True
  | getGadgetUdc _ => fun _ => True
  | rmGadget g opts => RmGadgetSafe K (functionOps K) g opts

/-- A safe call keeps the links in step. -/
lemma run_linkInv (c : UdcCall) {t : World κ × State} (hsafe : c.Safe K t) (h : LinkInv t) :
    Ends (fun _ => LinkInv) (fun _ => LinkInv) True (c.run K t) := by
  cases c with
  | createGadget name attrs strs =>
    refine Ends.bind (createGadgetWith_linkInv K (fun gad n => ?_) h hsafe) fun _ _ ht => ht
    have h := stable_next K n
    exact .bind (.whenSome fun _ _ => h.keeps_usbgSetGadgetAttrs List.nil_prefix) fun _ =>
      .whenSome fun _ _ => h.keeps_usbgSetGadgetStrs List.nil_prefix
  | createGadgetVidPid name idVendor idProduct =>
    refine Ends.bind (createGadgetWith_linkInv K (fun gad n => ?_) h hsafe) fun _ _ ht => ht
    exact .bind ((stable_next K n).keeps_usbgWriteHex16 List.nil_prefix) fun _ =>
      (stable_next K n).keeps_usbgWriteHex16 List.nil_prefix
  | enableGadget g udc => exact usbgEnableGadget_linkInv K h hsafe
  | disableGadget g => exact usbgDisableGadget_linkInv K h
  | getGadgetUdc g => exact Ends.bind (usbgGetGadgetUdc_linkInv K h) fun _ _ ht => ht
  | rmGadget g opts => exact usbgRmGadget_linkInv K _ (functionOps_stable K) h hsafe

end UdcCall

/-- In every run of safe calls after a `usbg_init` that found no two gadgets on one controller, the
links are in step. -/
theorem udcLinksAgree_of_safe (cfg : CStr) (w₀ w : World κ) (s : State) (t : World κ × State)
    (hinit : usbgInit K cfg w₀ = (.ok s, w)) (hb : BoundApart s)
    (hrun : Calls (UdcCall.run K) (UdcCall.Safe K) (w, s) t) : UdcLinksAgree t.2 :=
  (hrun.invariant LinkInv (fun c _ hsafe h => c.run_linkInv K hsafe h)
    (usbgInit_linkInv K hinit hb)).udcLinksAgree

/-! ### Two gadgets on one controller -/

/-- A machine with the gadgets `a` and `b`, bound to nothing, and one controller. -/
def twoGadgets : Kernel Unit :=
  fixedKernel (fun p => if p = udcClassDir then ["u".toList]
    else if p = ["/c".toList, gadgetsDir] then ["a".toList, "b".toList] else []) fun _ => []

/-- What `usbg_init` makes of it. -/
def twoGadgetsState : State :=
  { path := ["/c".toList, gadgetsDir], configfsPath := "/c".toList,
    gadgets := [.allocated 1 ["/c".toList, gadgetsDir] "a".toList, .allocated 2 ["/c".toList, gadgetsDir] "b".toList],
    udcs := [{ addr := 0, name := "u".toList, gadget := none }], lastFailedImport := none }

lemma usbgInit_twoGadgets : usbgInit twoGadgets "/c".toList { sys := (), next := 0 } =
    (.ok twoGadgetsState, { sys := (), next := 3 }) := by
  rfl

lemma boundApart_twoGadgets : BoundApart twoGadgetsState := by
  have hnone : ∀ g ∈ twoGadgetsState.gadgets, g.udc = none := by
    simp [twoGadgetsState, Gadget.allocated]
  intro g hg g' _ u hu
  rw [hnone g hg] at hu
  cases hu

/-- The state when `a` has been bound to the controller. -/
def aBound : World Unit × State :=
  ((UdcCall.enableGadget 1 (some 0)).run twoGadgets ({ sys := (), next := 3 }, twoGadgetsState)).2

/-- Binding `a`, unbinding it again and binding `b` is safe. -/
theorem udcLinksAgree_rebound :
    UdcLinksAgree ((UdcCall.enableGadget 2 (some 0)).run twoGadgets
      ((UdcCall.disableGadget 1).run twoGadgets aBound).2).2.2 := by
  refine udcLinksAgree_of_safe twoGadgets "/c".toList { sys := (), next := 0 }
    { sys := (), next := 3 } twoGadgetsState _ usbgInit_twoGadgets boundApart_twoGadgets ?_
  · have hfree : ∀ t : World Unit × State, ∀ g, t.2.gadgetOf 0 = none →
        UdcCall.Safe twoGadgets (.enableGadget g (some 0)) t := by
      intro t g hfree gad u ud _ hu hud _
      obtain rfl : 0 = u := Option.some.inj hu
      rw [State.gadgetOf, hud] at hfree
      exact .inl hfree
    refine (((Calls.refl _).call _ ?_ ?_).call _ trivial ?_).call _ ?_ ?_
    · exact hfree _ _ rfl
    · exact fun h => by cases h
    · exact fun h => by cases h
    · exact hfree _ _ rfl
    · exact fun h => by cases h

/-- Binding `b` to the controller of `a` leaves `a` with a link to a controller that does not
remember it. -/
theorem udcLinksAgree_fails :
    ¬ ∀ (K : Kernel Unit) (cfg : CStr) (w₀ w : World Unit) (s : State) (t : World Unit × State),
      usbgInit K cfg w₀ = (.ok s, w) → BoundApart s →
      Calls (UdcCall.run K) (fun _ _ => True) (w, s) t → UdcLinksAgree t.2 := by
  intro h
  have hrun : Calls (UdcCall.run twoGadgets) (fun _ _ => True)
      ({ sys := (), next := 3 }, twoGadgetsState)
      ((UdcCall.enableGadget 2 (some 0)).run twoGadgets aBound).2 := by
    refine ((Calls.refl _).call _ trivial ?_).call _ trivial ?_
    · exact fun h => by cases h
    · exact fun h => by cases h
  have hagree := h twoGadgets "/c".toList { sys := (), next := 0 } _ _ _ usbgInit_twoGadgets
    boundApart_twoGadgets hrun
  -- `a` is still bound to the controller, which remembers `b`
  have hlinks := hagree.1 { Gadget.allocated 1 ["/c".toList, gadgetsDir] "a".toList with udc := some 0 }
    (List.mem_cons_self ..) { addr := 0, name := "u".toList, gadget := some 2 }
    (List.mem_cons_self ..)
  exact absurd (hlinks.mp rfl) (by simp)

end Libusbgx
