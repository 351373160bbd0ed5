import Libusbgx.Mirror.Bindings

/-!
# Removals

The removals take an object out of its list once the kernel has removed its directory, and the kernel only does
that when no link leads to it.
-/

namespace Libusbgx

open Prog Machine

variable {M : Machine} {cfg : CStr} {N : Naming} {T T' : Tree} {w w' w₀ : World Fs} {g g' g₀ : Gadget} {c c₀ : Config}
  {d p : Path} {tidy same : Prop} {α : Type}

/-! ## Directories of languages -/

/-- Removing everything in a directory below which there are no places. -/
lemma usbgRmAllDirs_beside (hM : Configfs M cfg) (hd : d.Clean) (hp : p.Clean) (hdp : d <+: p)
    (hplace : ∀ x, ¬ Place ((p ++ [x]).drop 3)) (h : Shaped cfg w.tree) :
    Ends (fun _ => Beside cfg d w) (fun _ => Beside cfg d w) True (usbgRmAllDirs M.kernel p w) := by
  rw [usbgRmAllDirs]
  refine Ends.bind (R := fun names t => Beside cfg d w t ∧ ∀ name ∈ names, (p ++ [name]).Clean) ?_ ?_
  · refine ends_scandir (fun w' ht hn _ => ⟨⟨.of_eq h ht (le_of_eq hn.symm), samePlaces_of_eq ht⟩,
      fun name hname => ?_⟩)
      fun _ w' _ ht hn => ⟨.of_eq h ht (le_of_eq hn.symm), samePlaces_of_eq ht⟩
    obtain ⟨n, hn, -⟩ := mem_listing.mp hname
    rw [hp.2] at hn
    exact h.clean hn (by simp)
  · rintro names w₁ ⟨hb, hnames⟩
    refine Ends.forEach (fun name hname w₂ hb => ?_) hb
    refine (usbgRmDir_within hM hd hb.within.shaped (hdp.trans (List.prefix_append ..))).mono_undef
      (fun _ w' ht => ?_) (fun _ w' ht => ?_) False.elim
    · refine ⟨hb.within.trans ht.1.1, fun q hq => (ht.2.of_ne hq ?_).trans (hb.places q hq)⟩
      rintro rfl
      rw [(hnames name hname).2] at hq
      exact hplace name hq
    · exact ⟨hb.within.trans ht.1.1, hb.places.trans (samePlaces_of_eq ht.1.2)⟩

/-! ## Configurations -/

/-- Nothing changes the configurations of a gadget but their bindings. -/
lemma configsBelow_cores {l : List Config.Core} (hl : (l.map Config.Core.addr).Nodup) :
    ConfigsBelow [] fun g => g.configs.map Config.core = l where
  config _ _ _ _ := ⟨List.nil_prefix, fun _ _ => List.nil_prefix⟩
  put g a c c' hg hc hcore _ := by
    have haddrs : KeysNodup Config.addr g.configs := by
      rw [KeysNodup]
      have : g.configs.map Config.addr = (g.configs.map Config.core).map Config.Core.addr := by
        rw [List.map_map]
        rfl
      rw [this, hg]
      exact hl
    have haddr : c'.addr = c.addr := congrArg Config.Core.addr hcore
    rw [← hg, Gadget.setConfig, List.map_map]
    refine List.map_congr_left fun x hx => ?_
    by_cases he : x.addr = c'.addr
    · rw [Function.comp_apply, if_pos he, hcore, haddrs.eq hx (find?_key_mem hc) (he.trans haddr)]
    · rw [Function.comp_apply, if_neg he]

/-- The OS descriptor link leads to none but the configuration that the gadget remembers, so the kernel does not remove
that one before the link is gone. -/
lemma GadgetMirrored.free_of_not_pinned (h : GadgetMirrored cfg N w g) (hc : c ∈ g.configs)
    (hfree : ¬ w.tree.Pinned (g.dir ++ [configsDir, c.name])) (hos : g.osDescBinding = some c.addr) (x : CStr) :
    w.tree.made (g.dir ++ [osDescDir, x]) = none := by
  rcases hn : w.tree.made (g.dir ++ [osDescDir, x]) with - | n
  · rfl
  · obtain ⟨text, t, rfl⟩ := h.os_link hn
    obtain ⟨c', hc', hos', rfl⟩ := h.os.target x text t hn
    obtain rfl := h.configAddrs.eq hc' hc (Option.some.inj (hos'.symm.trans hos))
    exact absurd (FileTree.pinned_iff.mpr ⟨_, text, (FileTree.made_eq_some.mp hn).1⟩) hfree

/-- The end of `usbg_rm_config` -/
lemma rmConfigDir_mirror (hM : Configfs M cfg) (h : GadgetMirrored cfg N w g) (hc : c ∈ g.configs) :
    Ends (fun _ => MirrorStep cfg N True True w g) (fun _ => MirrorStep cfg N True True w g) True
      ((do
        io (usbgRmDir M.kernel c.path c.name)
        update fun g => { g with configs := g.configs.filter (·.addr ≠ c.addr) } : On Fs Gadget Unit) (w, g)) := by
  have hcm := h.configs c hc
  have hdir : c.path ++ [c.name] = g.dir ++ [configsDir, c.name] := by
    rw [hcm.path]
    simp
  have hclean : (g.dir ++ [configsDir, c.name]).Clean := h.clean_of_made hcm.made
  refine Ends.bind (R := fun _ t => t.2 = g ∧ Within cfg g.dir w t.1 ∧
      PlaceSet (g.dir ++ [configsDir, c.name]) none w.tree t.1.tree ∧
        ¬ w.tree.Pinned (g.dir ++ [configsDir, c.name])) ?_ ?_
  · refine ends_io ((usbgRmDir_within hM h.clean h.shaped (hdir ▸ List.prefix_append ..)).mono_undef (fun _ w' ht => ?_)
      (fun _ w' ht => .of_eq h ht.1.2 ht.1.1.next) False.elim)
    rw [hdir, hclean.2] at ht
    exact ⟨rfl, ht.1.1, ht.2, (rmdir_eq_ok.mp ht.1.2).2.2.1⟩
  · rintro - ⟨w₁, g₁⟩ ⟨hg, hin, hset, hpinned⟩
    obtain rfl : g = g₁ := hg.symm
    exact .dropConfig h hc hin hset (h.free_of_not_pinned hc hpinned)

/-- The content of a configuration -/
lemma rmConfigContent_mirror (hM : Configfs M cfg) (h : GadgetMirrored cfg N w g) (hc : c ∈ g.configs) :
    Ends (fun _ => MirrorStep cfg N True (g.osDescBinding ≠ some c.addr) w g)
      (fun _ => MirrorStep cfg N True (g.osDescBinding ≠ some c.addr) w g) True
        (rmConfigContent M.kernel c (w, g)) := by
  have hcm := h.configs c hc
  rw [rmConfigContent, self_bind_apply]
  refine Ends.bind (R := fun _ t => MirrorStep cfg N True (g.osDescBinding ≠ some c.addr) w g t ∧ t.2 = g)
    (Ends.when (fun hos => ?_) fun _ => ⟨(MirrorStep.refl h).any, rfl⟩) ?_
  · exact (usbgRmOsDescLink_mirror hM h).mono (fun _ _ ht => ⟨ht.1.weaken (fun h => h) fun hne => hne hos, ht.2⟩)
      fun _ _ ht => ht.1.any
  rintro - ⟨w₁, g₁⟩ ⟨hstep, hg⟩
  obtain rfl : g = g₁ := hg.symm
  refine Ends.bind ((ConfigStep.onConfig fun c _ _ => rmAllBindings_mirror hM hstep.mirrored ‹_›).mono
    (fun _ _ ht => hstep.seq ht.any) fun _ _ ht => hstep.seq ht.any) ?_
  rintro - ⟨w₂, g₂⟩ hstep₂
  refine Ends.require_bind (fun _ => ?_) fun _ => hstep₂
  have hm := hstep₂.mirrored
  have hdir : c.path ++ [c.name, stringsDir] = g₂.dir ++ [configsDir, c.name, stringsDir] := by
    rw [hstep₂.dir, hcm.path]
    simp
  have hname : c.name ≠ [] := by simp [hcm.named, configName]
  refine ends_io ((usbgRmAllDirs_beside hM hm.clean (hdir ▸ hm.clean.append (by simp [hname]))
    (hdir ▸ List.prefix_append ..)
    (fun x hx => ?_) hm.shaped).mono (fun _ _ ht => ?_) fun _ _ ht => ?_)
  · rw [hdir, List.append_assoc, ← hm.length_dir, List.drop_left] at hx
    exact hx
  · exact hstep₂.seq (MirrorStep.of_samePlaces hm ht.within ht.places).any
  · exact hstep₂.seq (MirrorStep.of_samePlaces hm ht.within ht.places).any

/-- `usbg_rm_config` -/
lemma usbgRmConfig_mirror (hM : Configfs M cfg) (h : GadgetMirrored cfg N w g) (a : Addr) (opts : RmOpts) :
    Ends (fun _ => MirrorStep cfg N True (opts → g.osDescBinding ≠ some a) w g)
      (fun _ => MirrorStep cfg N True (opts → g.osDescBinding ≠ some a) w g) True
      (usbgRmConfig M.kernel a opts (w, g)) := by
  rw [usbgRmConfig, self_bind_apply]
  refine Ends.deref_bind (fun c hc => ?_) fun _ => trivial
  have hmem : c ∈ g.configs := find?_key_mem hc
  obtain rfl : c.addr = a := find?_key_key hc
  have hnodup : ((g.configs.map Config.core).map Config.Core.addr).Nodup := by
    rw [List.map_map]
    exact h.configAddrs
  have hkeeps : Keeps (With (fun _ : World Fs => True) fun g' => g'.configs.map Config.core = g.configs.map Config.core)
      (rmConfigContent M.kernel c) := by
    have hst : Stable M.kernel [] fun _ : World Fs => True := .of_calls (fun _ _ _ _ => trivial) fun _ _ => trivial
    exact hst.keeps_rmConfigContent (configsBelow_cores hnodup) List.nil_prefix fun _ _ _ => List.nil_prefix
  refine Ends.bind (R := fun _ t => MirrorStep cfg N True (opts → g.osDescBinding ≠ some c.addr) w g t ∧
      t.2.configs.map Config.core = g.configs.map Config.core) (Ends.when (fun ho => ?_) fun _ =>
        ⟨(MirrorStep.refl h).any, rfl⟩) ?_
  · exact ((rmConfigContent_mirror hM h hmem).and_keeps hkeeps ⟨trivial, rfl⟩).mono
      (fun _ _ ht => ⟨ht.1.weaken (fun h => h) fun hs => hs ho, ht.2.2⟩)
      fun _ _ ht => ht.1.weaken (fun h => h) fun hs => hs ho
  · rintro - ⟨w₁, g₁⟩ ⟨hstep, hcores⟩
    have hcore : c.core ∈ g₁.configs.map Config.core := by
      rw [hcores]
      exact List.mem_map_of_mem hmem
    obtain ⟨c', hc', he⟩ := List.mem_map.mp hcore
    have hends := rmConfigDir_mirror hM hstep.mirrored hc'
    rw [show c'.path = c.path from congrArg Config.Core.path he, show c'.name = c.name from
      congrArg Config.Core.name he,
      show c'.addr = c.addr from congrArg Config.Core.addr he] at hends
    exact hends.mono (fun _ _ ht => hstep.seq ht.any) fun _ _ ht => hstep.seq ht.any

/-! ## Functions -/

/-- A function keeps its directory and its place in the list, whatever its callbacks do. -/
lemma MirrorStep.onFunction {m : On Fs Func α} {a : Addr} (hM : Configfs M cfg) (h : GadgetMirrored cfg N w g)
    (hm : ∀ {p I}, StableUpIn M.kernel p I → ∀ k : Func.Core, p <+: k.dir → Keeps (OnCore I k) m) :
    Ends (fun _ t => MirrorStep cfg N True True w g t ∧ ∀ f ∈ g.functions, ∃ f' ∈ t.2.functions, f'.core = f.core)
      (fun _ t => MirrorStep cfg N True True w g t) True (Libusbgx.onFunction a m (w, g)) := by
  cases hf : g.function? a with
  | none =>
    rw [Libusbgx.onFunction, zoom_none (by rw [hf]; rfl)]
    trivial
  | some f =>
    have hmem : f ∈ g.functions := find?_key_mem hf
    have hfm := h.functions f hmem
    have hdir : f.core.dir = g.dir ++ [functionsDir, f.name] := by
      rw [Func.Core.dir, show f.core.path = f.path from rfl, hfm.path]
      simp [Func.core]
    have hclean : (g.dir ++ [functionsDir, f.name]).Clean := h.clean_of_made hfm.made
    have hkeeps := hm (stable_atFunction hM hclean h.length_dir w) f.core (hdir ▸ List.prefix_rfl)
    have hstep : ∀ t : World Fs × Func, OnCore (AtFunction cfg g.dir f.name w) f.core t →
        MirrorStep cfg N True True w g (t.1, g.setFunction t.2) := by
      rintro t ⟨hat, hcore⟩
      refine .updateFunction h hmem ?_ hat.beside.within hat.beside.places
      rw [hcore, show t.2.label = f.label from congrArg Func.Core.label hcore]
      rfl
    refine ends_onFunction hf ((hkeeps.ends (s := (w, f)) ⟨⟨.refl h.shaped _, hfm.made⟩, rfl⟩).mono
      (fun _ t ht => ⟨hstep t ht, fun x hx => ?_⟩) fun _ t ht => hstep t ht)
    have haddr : t.2.addr = f.addr := congrArg Func.Core.addr ht.2
    refine ⟨if x.addr = t.2.addr then t.2 else x, List.mem_map_of_mem hx, ?_⟩
    by_cases he : x.addr = t.2.addr
    · rw [if_pos he, h.functionAddrs.eq hx hmem (he.trans haddr)]
      exact ht.2
    · rw [if_neg he]

/-- A binding is a link, so the kernel does not remove a function that is bound. -/
lemma GadgetMirrored.unbound_of_not_pinned (h : GadgetMirrored cfg N w g) {f : Func} (hf : f ∈ g.functions)
    (hfree : ¬ w.tree.Pinned (g.dir ++ [functionsDir, f.name])) :
    ∀ c ∈ g.configs, ∀ b ∈ c.bindings, b.target ≠ f.addr := by
  rintro c hc b hb htarget
  obtain ⟨-, -, f', hf', haddr, text, -, hmade⟩ := (h.configs c hc).bindings b hb
  rw [h.functionAddrs.eq hf' hf (haddr.trans htarget)] at hmade
  exact hfree (FileTree.pinned_iff.mpr ⟨_, text, (FileTree.made_eq_some.mp hmade).1⟩)

/-- The end of `usbg_rm_function` -/
lemma rmFunctionDir_mirror (hM : Configfs M cfg) (h : GadgetMirrored cfg N w g) {f : Func} (hf : f ∈ g.functions) :
    Ends (fun _ => MirrorStep cfg N True True w g) (fun _ => MirrorStep cfg N True True w g) True
      ((do
        io (usbgRmDir M.kernel f.path f.name)
        update fun g => { g with functions := g.functions.filter (·.addr ≠ f.addr) } : On Fs Gadget Unit) (w, g)) := by
  have hfm := h.functions f hf
  have hdir : f.path ++ [f.name] = g.dir ++ [functionsDir, f.name] := by
    rw [hfm.path]
    simp
  have hclean : (g.dir ++ [functionsDir, f.name]).Clean := h.clean_of_made hfm.made
  refine Ends.bind (R := fun _ t => t.2 = g ∧ Within cfg g.dir w t.1 ∧
      PlaceSet (g.dir ++ [functionsDir, f.name]) none w.tree t.1.tree ∧
        ¬ w.tree.Pinned (g.dir ++ [functionsDir, f.name]))
    ?_ ?_
  · refine ends_io ((usbgRmDir_within hM h.clean h.shaped (hdir ▸ List.prefix_append ..)).mono_undef (fun _ w' ht => ?_)
      (fun _ w' ht => .of_eq h ht.1.2 ht.1.1.next) False.elim)
    rw [hdir, hclean.2] at ht
    exact ⟨rfl, ht.1.1, ht.2, (rmdir_eq_ok.mp ht.1.2).2.2.1⟩
  · rintro - ⟨w₁, g₁⟩ ⟨hg, hin, hset, hpinned⟩
    obtain rfl : g = g₁ := hg.symm
    exact .dropFunction h hf hin hset (h.unbound_of_not_pinned hf hpinned)

/-- A call on a configuration leaves the list of functions alone. -/
lemma keeps_functions_onConfig {m : On Fs Config α} {a : Addr} {l : List Func} :
    Keeps (fun t : World Fs × Gadget => t.2.functions = l) (onConfig a m) := by
  intro s hs
  cases hc : s.2.config? a with
  | none =>
    rw [onConfig, zoom_none (by rw [hc]; rfl)]
    exact hs
  | some c =>
    rw [onConfig, zoom_some (by rw [hc]; rfl)]
    exact hs

/-- `usbg_rm_function` -/
lemma usbgRmFunction_mirror (hM : Configfs M cfg) (h : GadgetMirrored cfg N w g) (a : Addr) (opts : RmOpts) :
    Ends (fun _ => MirrorStep cfg N True True w g) (fun _ => MirrorStep cfg N True True w g) True
      (usbgRmFunction M.kernel (functionOps M.kernel) a opts (w, g)) := by
  rw [usbgRmFunction, self_bind_apply]
  refine Ends.deref_bind (fun f hf => ?_) fun _ => trivial
  have hmem : f ∈ g.functions := find?_key_mem hf
  obtain rfl : f.addr = a := find?_key_key hf
  -- the bindings
  refine Ends.bind (R := fun _ t => MirrorStep cfg N True True w g t ∧ t.2.functions = g.functions)
    (Ends.when (fun _ => ?_) fun _ => ⟨.refl h, rfl⟩) ?_
  · have hloop : Upholds (MirrorStep cfg N True True w g)
        (forEach (fun c : Config => onConfig c.addr (rmBindingsTo M.kernel f.addr)) g.configs) :=
      .forEach fun c _ => upholds_of_steps fun w g h =>
        ConfigStep.onConfig fun c hc _ => rmBindingsTo_mirror hM h hc f.addr
    exact ((hloop _ (.refl h)).and_keeps (.forEach fun c _ => keeps_functions_onConfig) rfl).mono (fun _ _ ht => ht)
      fun _ _ ht => ht.1
  rintro - ⟨w₁, g₁⟩ ⟨hstep, hfs⟩
  -- what the type keeps below the directory
  refine Ends.bind (R := fun _ t => MirrorStep cfg N True True w g t ∧ ∃ f' ∈ t.2.functions, f'.core = f.core) ?_ ?_
  · cases hr : (functionOps M.kernel f.type).remove with
    | none => exact ⟨hstep, f, hfs ▸ hmem, rfl⟩
    | some r =>
      exact (MirrorStep.onFunction hM hstep.mirrored fun hst k hp =>
        (functionOps_stable M.kernel).remove hst k hp _ r opts hr).mono
        (fun _ _ ht => ⟨hstep.seq ht.1, ht.2 f (hfs ▸ hmem)⟩) fun _ _ ht => hstep.seq ht
  · rintro - ⟨w₂, g₂⟩ ⟨hstep₂, f', hf', he⟩
    have hends := rmFunctionDir_mirror hM hstep₂.mirrored hf'
    rw [show f'.path = f.path from congrArg Func.Core.path he, show f'.name = f.name from congrArg Func.Core.name he,
      show f'.addr = f.addr from congrArg Func.Core.addr he] at hends
    exact hends.mono (fun _ _ ht => hstep₂.seq ht) fun _ _ ht => hstep₂.seq ht

end Libusbgx
