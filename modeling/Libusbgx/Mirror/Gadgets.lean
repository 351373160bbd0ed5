import Libusbgx.Mirror.State
import Libusbgx.Udc.Links

/-!
# Making and removing gadgets

The constructors of gadgets, the removal, and the calls around controllers, on the lists of the library and the
directories of all gadgets.
-/

namespace Libusbgx

open Prog Machine

variable {M : Machine} {cfg name : CStr} {N : Naming} {w w' : World Fs} {g gad : Gadget} {s s' : State}
  {t t' : World Fs × State} {tidy same : Prop} {α : Type}

/-! ## Constructors -/

/-- The directory of a new gadget. -/
lemma ends_mkdir_gadget (name : CStr) (hM : Configfs M cfg) (hs : Shaped cfg w.tree)
    (hdir : w.tree.IsDir [cfg, gadgetsDir]) :
    Ends (fun _ w' => (Path.Clean [cfg, gadgetsDir, name] ∧ Within cfg [cfg, gadgetsDir, name] w w') ∧
        (∀ r, w.tree.made ([cfg, gadgetsDir, name] ++ r) = none) ∧
        PlaceSet [cfg, gadgetsDir, name] (some (.dir true)) w.tree w'.tree)
      (fun _ w' => w'.tree = w.tree ∧ w.next ≤ w'.next) False (call M.kernel (.mkdir [cfg, gadgetsDir, name]) w) := by
  by_cases hname : name = []
  · subst hname
    -- without a name the path is that of a directory, which is there
    rcases M.call_cases (.mkdir [cfg, gadgetsDir, []]) w with ⟨e, w', hw, -, ht, hn⟩ | ⟨_, w', hw, hok, -⟩
    · rw [hw]
      exact ⟨ht, le_of_eq hn.symm⟩
    · obtain ⟨hfree, -⟩ := mkdir_eq_ok.mp (exec_mkdir.mp hok)
      rw [show Path.resolve [cfg, gadgetsDir, []] = [cfg, gadgetsDir] by simp [Path.resolve]] at hfree
      rw [FileTree.IsDir, hfree] at hdir
      cases hdir
  · have hclean : Path.Clean [cfg, gadgetsDir, name] := (clean_gadgetsPath cfg).append (by simpa using hname)
    refine (ends_mkdir_within hM hclean hs List.prefix_rfl).mono (fun _ w' ht => ?_) fun _ w' ht => ⟨ht.2, ht.1.next⟩
    rw [hclean.2] at ht
    exact ⟨⟨hclean, ht.1.1⟩, made_of_mkdir hs hclean.1 ht.1.2, ht.2⟩

namespace NewGadget

/-- The directory is removed again, or the kernel refuses to. -/
lemma rmdir (h : NewGadget cfg name t gad t') {path : Path} (hM : Configfs M cfg)
    (hclean : Path.Clean [cfg, gadgetsDir, name]) (hpath : path.resolve = [cfg, gadgetsDir, name])
    (hpre : [cfg, gadgetsDir, name] <+: path) : NoGadget cfg name t ((call M.kernel (.rmdir path) t'.1).2, t'.2) := by
  have hin := (stable_within hM hclean t'.1).keeps_call (c := .rmdir path) hpre t'.1 (.refl h.within.shaped _)
  have hset : PlaceSet path.resolve _ t'.1.tree (call M.kernel (.rmdir path) t'.1).2.tree :=
    (kernel_change M (.rmdir path) t'.1).placeSet
  rw [hpath] at hset
  exact ⟨.inr ⟨h.free, h.within.trans hin, _, h.set.trans hset⟩, (h.within.trans hin).next, h.gadgets, h.statePath⟩

end NewGadget

/-- `usbg_create_empty_gadget` -/
lemma usbgCreateEmptyGadget_mirror (hM : Configfs M cfg) (h : StateMirrored cfg N t) :
    Ends (fun gad t' => Path.Clean [cfg, gadgetsDir, name] ∧ NewGadget cfg name t gad t')
      (fun _ => NoGadget cfg name t) True
      (usbgCreateEmptyGadget M.kernel name t) := by
  obtain ⟨w, s⟩ := t
  have hpath : s.path ++ [name] = [cfg, gadgetsDir, name] := by rw [show s.path = _ from h.path]; rfl
  rw [usbgCreateEmptyGadget, self_bind_apply]
  refine Ends.require_bind (fun _ => ?_) fun _ => .of_eq name rfl (le_refl _) rfl
  refine Ends.of_eq (bind_ok (io_ok (a := newGadget name none (w, s)) (w := { w with next := w.next + 1 }) rfl)) ?_
  rw [hpath]
  have hnext : Within cfg [cfg, gadgetsDir, name] w { w with next := w.next + 1 } := .of_eq h.shaped rfl (Nat.le_succ _)
  refine Ends.bind (R := fun _ t => t.2 = s ∧ Path.Clean [cfg, gadgetsDir, name] ∧
    NewGadget cfg name (w, s) (newGadget name none (w, s)) t) (ends_io ((ends_mkdir_gadget name hM
      (w := { w with next := w.next + 1 }) h.shaped h.dir).mono_undef ?_ ?_ False.elim)) ?_
  · rintro _ w₁ ⟨⟨hclean, hin⟩, hfree, hset⟩
    exact ⟨rfl, hclean, ⟨h.path, rfl, rfl, rfl, rfl, rfl, hnext.trans hin, Nat.lt_of_succ_le hin.next, hfree, hset,
      rfl, rfl⟩⟩
  · exact fun _ w₁ ht => .of_eq name ht.1 (le_trans (Nat.le_succ _) ht.2) rfl
  rintro - ⟨w₁, s₁⟩ ⟨hs, hclean, hnew⟩
  obtain rfl : s = s₁ := hs.symm
  refine Ends.bind (R := fun _ t => t.2 = s ∧ NewGadget cfg name (w, s) (newGadget name none (w, s)) t)
    (ends_io (Ends.onFail (F := fun _ w₂ => w₂.tree = w₁.tree ∧ w₁.next ≤ w₂.next) ?_ fun e w₂ ht => ?_)) ?_
  · refine (usbgReadString_tree.and_keeps ((stable_next M.kernel w₁.next).keeps_usbgReadString List.nil_prefix)
      (le_refl _)).mono (fun _ w₂ ht => ⟨rfl, hnew.beside ⟨?_, samePlaces_of_eq ht.1⟩⟩) fun _ _ ht => ht
    exact .of_eq hnew.within.shaped ht.1 ht.2
  · have hnew₂ : NewGadget cfg name (w, s) (newGadget name none (w, s)) (w₂, s) :=
      hnew.beside ⟨.of_eq hnew.within.shaped ht.1 ht.2, samePlaces_of_eq ht.1⟩
    exact hnew₂.rmdir hM hclean hclean.2 List.prefix_rfl
  · rintro buf ⟨w₂, s₂⟩ ⟨hs, hnew₂⟩
    obtain rfl : s = s₂ := hs.symm
    cases (usbgGetUdc s buf).map Udc.addr with
    | none => exact ⟨hclean, hnew₂⟩
    | some u => exact ⟨hclean, { hnew₂ with }⟩

/-- What both constructors of gadgets do. -/
lemma createGadgetWith_mirror {setUp : Gadget → Io Fs Unit} (hM : Configfs M cfg) (h : StateMirrored cfg N t)
    (hset : ∀ gad w, Path.Clean [cfg, gadgetsDir, name] → gad.path = [cfg, gadgetsDir] → gad.name = name →
      Keeps (Beside cfg [cfg, gadgetsDir, name] w) (setUp gad)) :
    Ends (fun a t' => ∃ gad s', a = gad.addr ∧ NewGadget cfg name t gad (t'.1, s') ∧
        t'.2 = { s' with gadgets := insertSorted Gadget.name gad s'.gadgets })
      (fun _ => NoGadget cfg name t) True (createGadgetWith M.kernel name setUp t) := by
  obtain ⟨w, s⟩ := t
  rw [createGadgetWith_eq, makeGadgetDir]
  simp only [Prog.bind_assoc]
  rw [self_bind_apply]
  refine Ends.require_bind (fun _ => ?_) fun _ => .of_eq name rfl (le_refl _) rfl
  refine Ends.bind (usbgCreateEmptyGadget_mirror hM h) ?_
  rintro gad ⟨w₁, s₁⟩ ⟨hclean, hnew⟩
  have hdir : gad.path ++ [gad.name] = [cfg, gadgetsDir, name] := hnew.dir_eq
  have hkeeps := Upholds.of_keeps (hset gad w₁ hclean hnew.path hnew.named) w₁ (.refl hnew.within.shaped _)
  refine Ends.bind (R := fun _ t => t.2 = s₁ ∧ NewGadget cfg name (w, s) gad t) (ends_io (Ends.onFail
    (hkeeps.mono (fun _ _ hb => ⟨rfl, hnew.beside hb⟩) fun _ _ hb => hb) fun e w₂ hb => ?_)) ?_
  · have hnew₂ := hnew.beside hb
    rw [usbgRmDir, hdir]
    refine Ends.require_bind (fun _ => ?_) fun _ => ?_
    · have hno := hnew₂.rmdir hM hclean hclean.2 List.prefix_rfl
      exact Ends.intro (fun _ _ hr => by rw [hr] at hno; exact hno) (fun _ _ hr => by rw [hr] at hno; exact hno)
        fun _ _ => trivial
    · exact ⟨.inr ⟨hnew₂.free, hnew₂.within, _, hnew₂.set⟩, hnew₂.within.next, hnew₂.gadgets, hnew₂.statePath⟩
  · rintro - ⟨w₂, s₂⟩ ⟨-, hnew₂⟩
    exact ⟨gad, s₂, rfl, hnew₂, rfl⟩

/-! ## Controllers -/

namespace StateInv

/-- A state whose tree and whose gadgets are as before. -/
lemma of_tree (h : StateInv cfg N tidy (w, s)) (ht : w'.tree = w.tree) (hn : w.next ≤ w'.next)
    (hg : s'.gadgets = s.gadgets) (hp : s'.path = s.path) : StateInv cfg N tidy (w', s') := by
  refine ⟨h.1.of_frame (ht ▸ h.1.shaped) (ht ▸ h.1.dir) hn hg hp fun _ _ _ => by rw [ht], fun htidy => ?_⟩
  refine ⟨fun x hx => ?_, fun g hmem => ?_⟩
  · rw [ht] at hx
    rw [hg]
    exact (h.2 htidy).gadgets x hx
  · rw [ht]
    exact (h.2 htidy).each g (hg ▸ hmem)

/-- Work in the directory of a gadget that leaves the places alone. -/
lemma beside (h : StateInv cfg N tidy (w, s)) (hg : g ∈ s.gadgets) (hb : Beside cfg g.dir w w') :
    StateInv cfg N tidy (w', s) := by
  have hstep := MirrorStep.of_samePlaces (h.1.gadgets g hg) hb.within hb.places
  have hself : s.setGadget g = s := by
    rw [State.setGadget, List.map_congr_left (g := fun d => d), List.map_id']
    intro d hd
    by_cases he : d.addr = g.addr
    · rw [if_pos he, h.1.addrs.eq hd hg he]
    · rw [if_neg he]
  rw [← hself]
  exact ⟨h.1.setGadget hg hstep, fun ht => h.1.tidy_setGadget hg hstep trivial (h.2 ht)⟩

/-- The mirror says nothing about controllers. -/
lemma setGadgetUdc (h : StateInv cfg N tidy (w, s)) (a : Addr) (u : Option Addr) :
    StateInv cfg N tidy (w, s.setGadgetUdc a u) := by
  have hmem : ∀ d ∈ (s.setGadgetUdc a u).gadgets, ∃ d' ∈ s.gadgets, d = { d' with udc := d.udc } := by
    intro d hd
    obtain ⟨d', hd', rfl⟩ := List.mem_map.mp hd
    refine ⟨d', hd', ?_⟩
    by_cases he : d'.addr = a
    · rw [if_pos he]
    · rw [if_neg he]
  -- nothing that the mirror asks for depends on the controller
  have hmap : ∀ {β : Type} (key : Gadget → β), (∀ d o, key { d with udc := o } = key d) →
      (s.setGadgetUdc a u).gadgets.map key = s.gadgets.map key := by
    intro β key hkey
    rw [State.setGadgetUdc, List.map_map]
    refine List.map_congr_left fun d _ => ?_
    by_cases he : d.addr = a
    · rw [Function.comp_apply, if_pos he, hkey]
    · rw [Function.comp_apply, if_neg he]
  refine ⟨⟨h.1.shaped, h.1.path, h.1.dir, fun d hd => ?_, ?_, ?_, fun d hd => ?_⟩, fun ht =>
    ⟨fun x hx => ?_, fun d hd => ?_⟩⟩
  · obtain ⟨d', hd', he⟩ := hmem d hd
    have hm := h.1.gadgets d' hd'
    rw [he]
    exact { hm with os := { hm.os with } }
  · show Increasing ((s.setGadgetUdc a u).gadgets.map Gadget.name)
    rw [hmap Gadget.name fun _ _ => rfl]
    exact h.1.names
  · show ((s.setGadgetUdc a u).gadgets.map Gadget.addr).Nodup
    rw [hmap Gadget.addr fun _ _ => rfl]
    exact h.1.addrs
  · obtain ⟨d', hd', he⟩ := hmem d hd
    rw [he]
    exact h.1.fresh d' hd'
  · have hname : x ∈ (s.setGadgetUdc a u).gadgets.map Gadget.name := by
      rw [hmap Gadget.name fun _ _ => rfl]
      exact List.mem_map.mpr ((h.2 ht).gadgets x hx)
    exact List.mem_map.mp hname
  · obtain ⟨d', hd', he⟩ := hmem d hd
    have hm := (h.2 ht).each d' hd'
    rw [he]
    exact ⟨hm.functions, hm.configs⟩

lemma setUdcGadget (h : StateInv cfg N tidy (w, s)) (u : Addr) (a : Option Addr) :
    StateInv cfg N tidy (w, s.setUdcGadget u a) := h.of_tree rfl (le_refl _) rfl rfl

end StateInv

lemma upholds_derefGadget (a : Addr) : Upholds (StateInv cfg N tidy) (derefGadget a : On Fs State Gadget) :=
  .of_keeps fun t h => by
    rw [derefGadget, self_bind_apply]
    exact Keeps.deref _ t h

lemma upholds_derefUdc (u : Addr) : Upholds (StateInv cfg N tidy) (derefUdc u : On Fs State Udc) :=
  .of_keeps fun t h => by
    rw [derefUdc, self_bind_apply]
    exact Keeps.deref _ t h

/-- `usbg_get_gadget_udc` -/
lemma usbgGetGadgetUdc_mirror (a : Addr) : Upholds (StateInv cfg N tidy) (usbgGetGadgetUdc M.kernel a) := by
  refine .bind (upholds_derefGadget a) fun gad => ?_
  cases gad.udc with
  | none => exact .pure _
  | some u =>
    refine .bind (.attempt ?_) fun r => ?_
    · rintro ⟨w, s⟩ h
      refine ends_io ((usbgReadString_tree.and_keeps ((stable_next M.kernel w.next).keeps_usbgReadString
        List.nil_prefix)
        (le_refl _)).mono (fun _ _ ht => ?_) fun _ _ ht => ?_)
      · exact h.of_tree ht.1 ht.2 rfl rfl
      · exact h.of_tree ht.1 ht.2 rfl rfl
    · cases r with
      | error _ => exact .pure _
      | ok buf =>
        exact .bind (upholds_derefUdc u) fun udc => .ite (fun _ => .pure _) fun _ =>
          .bind (.of_keeps fun _ h => StateInv.setUdcGadget h u none) fun _ =>
          .bind (.of_keeps fun _ h => StateInv.setGadgetUdc h a none) fun _ => .pure _

/-- `usbg_get_udc_gadget` -/
lemma usbgGetUdcGadget_mirror (u : Addr) : Upholds (StateInv cfg N tidy) (usbgGetUdcGadget M.kernel u) := by
  refine .bind (upholds_derefUdc u) fun udc => ?_
  cases udc.gadget with
  | none => exact .pure _
  | some a =>
    refine .bind (usbgGetGadgetUdc_mirror a) fun o => ?_
    cases o with
    | some _ => exact .bind (upholds_derefUdc u) fun _ => .pure _
    | none =>
      exact .bind (upholds_derefUdc u) fun _ => .bind (.deref _) fun g => .bind (upholds_derefGadget g) fun _ =>
        .bind (.of_keeps fun _ h => StateInv.setGadgetUdc h g none) fun _ =>
        .bind (.of_keeps fun _ h => StateInv.setUdcGadget h u none) fun _ => .pure _

/-- The UDC file of a gadget is written to. -/
lemma writeUdc_mirror (hM : Configfs M cfg) (h : StateInv cfg N tidy t) (hg : g ∈ t.2.gadgets) (str : Option CStr) :
    Ends (fun _ => StateInv cfg N tidy) (fun _ => StateInv cfg N tidy) True
      (io (usbgWriteString M.kernel g.path g.name udcFile str) t) := by
  obtain ⟨w, s⟩ := t
  cases str with
  | none => exact h
  | some str =>
    have hm := h.1.gadgets g hg
    have hkeeps : Keeps (Beside cfg g.dir w) (usbgWriteBuf M.kernel g.path g.name udcFile str) :=
      keeps_beside_usbgWriteBuf hM hm.clean (by simp [Gadget.dir])
    exact ends_io ((Upholds.of_keeps hkeeps w (.refl hm.shaped _)).mono (fun _ _ hb => h.beside hg hb)
      fun _ _ hb => h.beside hg hb)

/-- The controller that a gadget was bound to forgets the gadget. -/
lemma upholds_unbind (o : Option Addr) :
    Upholds (StateInv cfg N tidy) (whenSome (fun old => do
      let _ ← (derefUdc old : On Fs State Udc)
      update (State.setUdcGadget old none)) o) :=
  .whenSome fun old _ => .bind (upholds_derefUdc old) fun _ => .of_keeps fun _ h => StateInv.setUdcGadget h old none

/-- `usbg_enable_gadget` -/
lemma usbgEnableGadget_mirror (hM : Configfs M cfg) (a : Addr) (udc : Option Addr) :
    Upholds (StateInv cfg N tidy) (usbgEnableGadget M.kernel a udc) := by
  rintro ⟨w, s⟩ h
  rw [usbgEnableGadget, self_bind_apply]
  cases udc.or ((usbgGetFirstUdc s).map Udc.addr) with
  | none => exact h
  | some u =>
    dsimp only
    rw [Prog.pure_bind, derefGadget, Prog.bind_assoc, self_bind_apply]
    refine Ends.deref_bind (fun gad hgad => ?_) fun _ => trivial
    rw [derefUdc, Prog.bind_assoc, self_bind_apply]
    refine Ends.deref_bind (fun ud _ => ?_) fun _ => trivial
    refine Ends.bind (writeUdc_mirror hM h (find?_key_mem hgad) _) fun _ t ht => ?_
    exact Upholds.bind (upholds_unbind _) (fun _ => .bind (.of_keeps fun _ h => StateInv.setGadgetUdc h a (some u))
      fun _ =>
      .of_keeps fun _ h => StateInv.setUdcGadget h u (some a)) t ht

/-- `usbg_disable_gadget` -/
lemma usbgDisableGadget_mirror (hM : Configfs M cfg) (a : Addr) :
    Upholds (StateInv cfg N tidy) (usbgDisableGadget M.kernel a) := by
  rintro ⟨w, s⟩ h
  rw [usbgDisableGadget, derefGadget, Prog.bind_assoc, self_bind_apply]
  refine Ends.deref_bind (fun gad hgad => ?_) fun _ => trivial
  refine Ends.bind (writeUdc_mirror hM h (find?_key_mem hgad) _) fun _ t ht => ?_
  exact Upholds.bind (upholds_unbind _) (fun _ => .of_keeps fun _ h => StateInv.setGadgetUdc h a none) t ht

/-! ## Removal -/

/-- A gadget goes out of the list when the kernel has removed its directory. -/
lemma StateInv.dropGadget (h : StateInv cfg N tidy (w, s)) (hg : g ∈ s.gadgets) (hin : Within cfg g.dir w w')
    (hset : PlaceSet g.dir none w.tree w'.tree) :
    StateInv cfg N tidy (w', { s with gadgets := s.gadgets.filter (·.addr ≠ g.addr) }) := by
  have hm := h.1.gadgets g hg
  rw [hm.dir_eq] at hin hset
  have hmem : ∀ d ∈ s.gadgets.filter (·.addr ≠ g.addr), d ∈ s.gadgets ∧ d.name ≠ g.name := by
    intro d hd
    obtain ⟨hd, hne⟩ := List.mem_filter.mp hd
    exact ⟨hd, fun he => of_decide_eq_true hne (by rw [Increasing.keysNodup h.1.names |>.eq hd hg he])⟩
  refine ⟨⟨hin.shaped, h.1.path, hin.isDir_gadgets.mpr h.1.dir, fun d hd => ?_, ?_, ?_, fun d hd => ?_⟩,
    fun ht => ⟨fun x hx => ?_, fun d hd => ?_⟩⟩
  · obtain ⟨hd, hne⟩ := hmem d hd
    exact (h.1.gadgets d hd).frame hin.shaped hin.next (h.1.other hd hne hin)
  · exact h.1.names.sublist List.filter_sublist
  · exact List.Nodup.sublist (List.filter_sublist.map Gadget.addr) h.1.addrs
  · exact lt_of_lt_of_le (h.1.fresh d (hmem d hd).1) hin.next
  · have hxg : x ≠ g.name := by
      rintro rfl
      exact hx (hset.self trivial)
    rw [hset.of_ne (q := [cfg, gadgetsDir, x]) trivial (by simpa using hxg)] at hx
    obtain ⟨d, hd, rfl⟩ := (h.2 ht).gadgets x hx
    exact ⟨d, List.mem_filter.mpr ⟨hd, decide_eq_true fun he => hxg (by rw [h.1.addrs.eq hd hg he])⟩, rfl⟩
  · obtain ⟨hd, hne⟩ := hmem d hd
    exact ((h.2 ht).each d hd).frame (h.1.other hd hne hin)

/-- The content of a gadget -/
lemma rmGadgetContent_mirror (hM : Configfs M cfg) (h : GadgetMirrored cfg N w g) :
    Steps cfg N True False (rmGadgetContent M.kernel (functionOps M.kernel)) w g := by
  have hconfigs : Upholds (MirrorStep cfg N True False w g)
      (forEach (fun c : Config => usbgRmConfig M.kernel c.addr true) g.configs) :=
    .forEach fun c _ => upholds_of_steps fun w g h => (usbgRmConfig_mirror hM h c.addr true).mono
      (fun _ _ ht => ht.weaken (fun h => h) False.elim) fun _ _ ht => ht.weaken (fun h => h) False.elim
  have hfunctions : ∀ l : List Func, Upholds (MirrorStep cfg N True False w g)
      (forEach (fun f : Func => usbgRmFunction M.kernel (functionOps M.kernel) f.addr true) l) := fun l =>
    .forEach fun f _ => upholds_of_steps fun w g h => (usbgRmFunction_mirror hM h f.addr true).mono
      (fun _ _ ht => ht.any) fun _ _ ht => ht.any
  rw [Steps, rmGadgetContent, self_bind_apply]
  refine Ends.bind (hconfigs (w, g) (MirrorStep.refl h).any) ?_
  rintro - ⟨w₁, g₁⟩ ht
  rw [self_bind_apply]
  refine Ends.bind (hfunctions g₁.functions (w₁, g₁) ht) ?_
  rintro - ⟨w₂, g₂⟩ ht₂
  have hm := ht₂.mirrored
  have hpath : g₁.path ++ [g₁.name, stringsDir] = g₂.dir ++ [stringsDir] := by
    rw [show g₂.dir = g₁.dir from ht₂.dir.trans ht.dir.symm, Gadget.dir]
    simp
  refine Ends.require_bind (fun _ => ?_) fun _ => ht₂
  rw [hpath]
  refine ends_io ((usbgRmAllDirs_beside hM hm.clean (hm.clean.append (by simp)) (List.prefix_append ..) (fun x hx => ?_)
    hm.shaped).mono (fun _ _ hb => ?_) fun _ _ hb => ?_)
  · rw [List.append_assoc, ← hm.length_dir, List.drop_left] at hx
    exact hx.elim stringsDir_ne_configsDir fun hx => hx.elim stringsDir_ne_functionsDir stringsDir_ne_osDescDir
  · exact ht₂.seq (MirrorStep.of_samePlaces hm hb.within hb.places).any
  · exact ht₂.seq (MirrorStep.of_samePlaces hm hb.within hb.places).any

/-- `usbg_rm_gadget` -/
lemma usbgRmGadget_mirror (hM : Configfs M cfg) (a : Addr) (opts : RmOpts) :
    Upholds (StateInv cfg N tidy) (usbgRmGadget M.kernel (functionOps M.kernel) a opts) := by
  refine .bind (.when fun _ t h => ?_) fun _ => ?_
  · exact (onGadget_mirror (fun _ => True) h fun g _ _ hg => rmGadgetContent_mirror hM hg).mono
      (fun _ _ ht => ht) fun _ _ ht => ⟨ht.1, fun htidy => ht.2 ⟨trivial, htidy⟩⟩
  · rintro ⟨w, s⟩ h
    rw [derefGadget, Prog.bind_assoc, self_bind_apply]
    refine Ends.deref_bind (fun gad hgad => ?_) fun _ => trivial
    have hmem : gad ∈ s.gadgets := find?_key_mem hgad
    obtain rfl : gad.addr = a := find?_key_key hgad
    have hm := h.1.gadgets gad hmem
    refine Ends.bind (R := fun _ t => t.2 = s ∧ Within cfg gad.dir w t.1 ∧ PlaceSet gad.dir none w.tree t.1.tree)
      (ends_io ((usbgRmDir_within hM hm.clean hm.shaped List.prefix_rfl).mono_undef (fun _ w' ht => ?_)
        (fun _ w' ht => h.of_tree ht.1.2 ht.1.1.next rfl rfl) False.elim)) ?_
    · have hset := ht.2
      rw [show gad.path ++ [gad.name] = gad.dir from rfl, hm.clean.2] at hset
      exact ⟨rfl, ht.1.1, hset⟩
    · rintro - ⟨w₁, s₁⟩ ⟨hs, hin, hset⟩
      obtain rfl : s = s₁ := hs.symm
      exact h.dropGadget hmem hin hset

end Libusbgx
