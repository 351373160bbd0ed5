import Libusbgx.Mirror.Calls

/-!
# The calls on a configuration and the OS descriptor link

Bindings are made and removed one at a time, in the list of their configuration and in its directory.  The
removals take an object out of its list once the kernel has removed its directory, and the kernel only does that
when nothing is left in it and no link leads to it.
-/

namespace Libusbgx

open Prog Machine

variable {M : Machine} {cfg : CStr} {N : Naming} {T T' : Tree} {w w' w₀ : World Fs} {g g' g₀ : Gadget} {c c₀ : Config}
  {d : Path} {tidy same : Prop} {α : Type}

/-! ## Configurations in their gadget -/

lemma setConfig_self (hc : c ∈ g.configs) (hnodup : KeysNodup Config.addr g.configs) : g.setConfig c = g := by
  have hmap : g.configs.map (fun c' => if c'.addr = c.addr then c else c') = g.configs := by
    refine (List.map_congr_left fun c' hc' => ?_).trans (List.map_id _)
    by_cases he : c'.addr = c.addr
    · rw [if_pos he, hnodup.eq hc' hc he]
      rfl
    · rw [if_neg he]
      rfl
  rw [Gadget.setConfig, hmap]

lemma setConfig_setConfig {c' c'' : Config} (haddr : c''.addr = c'.addr) :
    (g.setConfig c').setConfig c'' = g.setConfig c'' := by
  simp only [Gadget.setConfig, List.map_map]
  congr 1
  refine List.map_congr_left fun x _ => ?_
  by_cases he : x.addr = c''.addr
  · have he' : x.addr = c'.addr := he.trans haddr
    simp [he', haddr]
  · have he' : ¬ x.addr = c'.addr := fun h => he (h.trans haddr.symm)
    simp [he, he']

lemma mem_setConfig {c' : Config} (hc : c ∈ g.configs) (haddr : c'.addr = c.addr) : c' ∈ (g.setConfig c').configs :=
  List.mem_map.mpr ⟨c, hc, if_pos haddr.symm⟩

/-- What a call on a configuration of a gadget does. -/
structure ConfigStep (cfg : CStr) (N : Naming) (w : World Fs) (g : Gadget) (c : Config)
    (t : World Fs × Config) : Prop where
  step : MirrorStep cfg N True True w g (t.1, g.setConfig t.2)
  core : t.2.core = c.core

namespace ConfigStep

variable {t : World Fs × Config}

lemma addr (h : ConfigStep cfg N w g c t) : t.2.addr = c.addr := congrArg Config.Core.addr h.core

lemma refl (h : GadgetMirrored cfg N w g) (hc : c ∈ g.configs) : ConfigStep cfg N w g c (w, c) := by
  refine ⟨?_, rfl⟩
  rw [setConfig_self hc h.configAddrs]
  exact .refl h

/-- Work that leaves the places alone. -/
lemma beside (h : GadgetMirrored cfg N w g) (hc : c ∈ g.configs) (hb : Beside cfg g.dir w w') :
    ConfigStep cfg N w g c (w', c) := by
  refine ⟨?_, rfl⟩
  rw [setConfig_self hc h.configAddrs]
  exact .of_samePlaces h hb.within hb.places

/-- One call after the other. -/
lemma seq {c' : Config} (h : ConfigStep cfg N w g c (w', c')) (h' : ConfigStep cfg N w' (g.setConfig c') c' t) :
    ConfigStep cfg N w g c t := by
  have hstep := h'.step
  rw [setConfig_setConfig h'.addr] at hstep
  exact ⟨h.step.seq hstep, h'.core.trans h.core⟩

/-- What every call on a configuration does, the same call on it does in a gadget. -/
lemma onConfig {m : On Fs Config α} {a : Addr}
    (hm : ∀ c ∈ g.configs, c.addr = a →
      Ends (fun _ => ConfigStep cfg N w g c) (fun _ => ConfigStep cfg N w g c) True (m (w, c))) :
    Ends (fun _ => MirrorStep cfg N True True w g) (fun _ => MirrorStep cfg N True True w g) True
      (Libusbgx.onConfig a m (w, g)) := by
  cases hc : g.config? a with
  | none =>
    rw [Libusbgx.onConfig, zoom_none (by rw [hc]; rfl)]
    trivial
  | some c =>
    exact ends_onConfig hc ((hm c (find?_key_mem hc) (find?_key_key hc)).mono (fun _ _ ht => ht.step)
      fun _ _ ht => ht.step)

end ConfigStep

/-- Calls on a configuration can be put together. -/
lemma upholds_configStep {m : On Fs Config α}
    (h : ∀ w g c, GadgetMirrored cfg N w g → c ∈ g.configs →
      Ends (fun _ => ConfigStep cfg N w g c) (fun _ => ConfigStep cfg N w g c) True (m (w, c)))
    (hc : c₀ ∈ g₀.configs) : Upholds (ConfigStep cfg N w₀ g₀ c₀) m := by
  rintro ⟨w, c⟩ hs
  exact (h w (g₀.setConfig c) c hs.step.mirrored (mem_setConfig hc hs.addr)).mono (fun _ _ ht => hs.seq ht)
    fun _ _ ht => hs.seq ht

/-! ## Bindings -/

/-- `usbg_add_config_function` -/
lemma usbgAddConfigFunction_mirror (hM : Configfs M cfg) (h : GadgetMirrored cfg N w g) (hc : c ∈ g.configs) {f : Func}
    (hf : f ∈ g.functions) (hN : N.Renders cfg) {name : Option CStr} :
    Ends (fun _ => ConfigStep cfg N w g c) (fun _ => ConfigStep cfg N w g c) True
      (usbgAddConfigFunction M.kernel name f (w, c)) := by
  have hcm := h.configs c hc
  have hfm := h.functions f hf
  have hdir : c.path ++ [c.name] ++ [name.getD f.name] = g.dir ++ [configsDir, c.name, name.getD f.name] := by
    rw [hcm.path]
    simp
  have hfdir : f.dir = g.dir ++ [functionsDir, f.name] := by
    rw [Func.dir, hfm.path]
    simp
  have hfclean : f.dir.Clean := by
    rw [hfdir]
    exact h.clean_of_made hfm.made
  have hcclean : (g.dir ++ [configsDir, c.name]).Clean := h.clean_of_made hcm.made
  rw [usbgAddConfigFunction]
  dsimp only
  rw [self_bind_apply]
  have hrefl : ConfigStep cfg N w g c (w, c) := .refl h hc
  refine Ends.require_bind (fun _ => ?_) fun _ => hrefl
  refine Ends.require_bind (fun _ => ?_) fun _ => hrefl
  refine Ends.require_bind (fun hfits => ?_) fun _ => hrefl
  have hlink : N.link f.dir.render f.dir := hfdir ▸ h.renders hN hfm.made (hfdir ▸ hfits)
  refine Ends.require_bind (fun _ => ?_) fun _ => hrefl
  rw [usbgAllocateBinding]
  refine Ends.of_eq (bind_ok (io_ok rfl)) ?_
  refine Ends.require_bind (fun hlinkFits => ?_) fun _ => hrefl
  rw [hdir] at hlinkFits ⊢
  refine Ends.bind (R := fun _ t => t.2 = c ∧ Within cfg g.dir w t.1 ∧
      w.tree.made (g.dir ++ [configsDir, c.name, name.getD f.name]) = none ∧
      PlaceSet (g.dir ++ [configsDir, c.name, name.getD f.name]) (some (.link f.dir.render f.dir)) w.tree t.1.tree)
    ?_ ?_
  · refine ends_io ((ends_symlink_within hM h.clean h.shaped (List.prefix_append ..)).mono_undef (fun _ w' ht => ?_)
      (fun _ w' ht => ?_) False.elim)
    · obtain ⟨⟨hin, hok⟩, hset⟩ := ht
      obtain ⟨hfree, -, hproper, -⟩ := symlink_eq_ok.mp hok
      -- the empty name would be that of the configuration itself, where nothing can be made
      have hname : name.getD f.name ≠ [] := by
        intro hnil
        rw [hnil, show g.dir ++ [configsDir, c.name, ([] : CStr)] = g.dir ++ [configsDir, c.name] ++ [[]] by simp,
          hcclean.resolve_append, show ([[]] : Path).filter (· ≠ []) = [] by simp, List.append_nil,
          (FileTree.made_eq_some.mp hcm.made).1] at hfree
        cases hfree
      have hclean : (g.dir ++ [configsDir, c.name, name.getD f.name]).Clean := by
        have := hcclean.append (q := [name.getD f.name]) (by simpa using hname)
        simpa using this
      rw [hclean.2] at hfree hset
      rw [show f.path ++ [f.name] = f.dir from rfl, hfclean.2] at hset
      exact ⟨rfl, hin, FileTree.made_of_get_none hfree, hset⟩
    · exact .beside h hc ⟨ht.1, samePlaces_of_eq ht.2⟩
  · rintro - ⟨w₁, c₁⟩ ⟨hc₁, hin, hfree, hset⟩
    obtain rfl : c = c₁ := hc₁.symm
    rw [update_apply]
    rw [hfdir] at hset
    refine ⟨MirrorStep.updateConfig h hc rfl hin hset ?_, rfl⟩
    refine hcm.insertBinding (b := { name := name.getD f.name, path := c.path ++ [c.name], target := f.addr })
      (f := f) f.dir.render h.length_dir (hfdir ▸ hset) hfree ?_ hlinkFits hf rfl (hfdir ▸ hlink)
    rw [hcm.path]
    simp

/-- `usbg_rm_binding` -/
lemma usbgRmBinding_mirror (hM : Configfs M cfg) (h : GadgetMirrored cfg N w g) (hc : c ∈ g.configs) (b : Binding) :
    Ends (fun _ => ConfigStep cfg N w g c) (fun _ => ConfigStep cfg N w g c) True
      (usbgRmBinding M.kernel b (w, c)) := by
  have hcm := h.configs c hc
  rw [usbgRmBinding, self_bind_apply]
  refine Ends.ite (fun hb => ?_) fun _ => trivial
  obtain ⟨hpath, -, f, -, -, text, -, hmade⟩ := hcm.bindings b hb
  have hclean : (g.dir ++ [configsDir, c.name, b.name]).Clean := h.clean_of_made hmade
  have hdir : b.path ++ [b.name] = g.dir ++ [configsDir, c.name, b.name] := by
    rw [hpath]
    simp
  refine Ends.bind (R := fun _ t => t.2 = c ∧ Within cfg g.dir w t.1 ∧
      PlaceSet (g.dir ++ [configsDir, c.name, b.name]) none w.tree t.1.tree) ?_ ?_
  · refine ends_io ((usbgRmFile_within hM h.clean h.shaped (hdir ▸ List.prefix_append ..)).mono_undef
      (fun _ w' ht => ?_)
      (fun _ w' ht => ?_) False.elim)
    · rw [hdir, hclean.2] at ht
      exact ⟨rfl, ht.1.1, ht.2⟩
    · exact .beside h hc ⟨ht.1.1, samePlaces_of_eq ht.1.2⟩
  · rintro - ⟨w₁, c₁⟩ ⟨hc₁, hin, hset⟩
    obtain rfl : c = c₁ := hc₁.symm
    exact ⟨.updateConfig h hc rfl hin hset (hcm.eraseBinding hb h.length_dir hset), rfl⟩

/-- The loops over bindings -/
lemma forEach_usbgRmBinding_mirror (hM : Configfs M cfg) (h : GadgetMirrored cfg N w g) (hc : c ∈ g.configs)
    (l : List Binding) :
    Ends (fun _ => ConfigStep cfg N w g c) (fun _ => ConfigStep cfg N w g c) True
      (forEach (usbgRmBinding M.kernel) l (w, c)) :=
  Upholds.forEach (fun b _ => upholds_configStep (fun _ _ _ h hc => usbgRmBinding_mirror hM h hc b) hc) _ (.refl h hc)

lemma rmAllBindings_mirror (hM : Configfs M cfg) (h : GadgetMirrored cfg N w g) (hc : c ∈ g.configs) :
    Ends (fun _ => ConfigStep cfg N w g c) (fun _ => ConfigStep cfg N w g c) True (rmAllBindings M.kernel (w, c)) :=
  forEach_usbgRmBinding_mirror hM h hc _

lemma rmBindingsTo_mirror (hM : Configfs M cfg) (h : GadgetMirrored cfg N w g) (hc : c ∈ g.configs) (f : Addr) :
    Ends (fun _ => ConfigStep cfg N w g c) (fun _ => ConfigStep cfg N w g c) True (rmBindingsTo M.kernel f (w, c)) :=
  forEach_usbgRmBinding_mirror hM h hc _

/-! ## The OS descriptor link -/

/-- `usbg_create_os_desc_link`, where no configuration is remembered -/
lemma usbgCreateOsDescLink_mirror (hM : Configfs M cfg) (hN : N.Renders cfg) (h : GadgetMirrored cfg N w g)
    (hnone : g.osDescBinding = none) (a : Addr) :
    Ends (fun _ => MirrorStep cfg N True False w g) (fun _ => MirrorStep cfg N True True w g) True
      (usbgCreateOsDescLink M.kernel a (w, g)) := by
  rw [usbgCreateOsDescLink, self_bind_apply]
  refine Ends.deref_bind (fun c hc => ?_) fun _ => trivial
  have hmem : c ∈ g.configs := find?_key_mem hc
  have hcm := h.configs c hmem
  have hcdir : c.path ++ [c.name] = g.dir ++ [configsDir, c.name] := by
    rw [hcm.path]
    simp
  have hlink : g.path ++ [g.name, osDescDir, c.name] = g.dir ++ [osDescDir, c.name] := by simp [Gadget.dir]
  have hname : c.name ≠ [] := by simp [hcm.named, configName]
  have hcclean : (g.dir ++ [configsDir, c.name]).Clean := h.clean_of_made hcm.made
  have hclean : (g.dir ++ [osDescDir, c.name]).Clean := h.clean.append (by simp [hname])
  refine Ends.require_bind (fun hfits => ?_) fun _ => .refl h
  refine Ends.require_bind (fun hlinkFits => ?_) fun _ => .refl h
  rw [hcdir] at hfits
  rw [hlink] at hlinkFits
  rw [hcdir, hlink]
  refine Ends.bind (R := fun _ t => t.2 = g ∧ Within cfg g.dir w t.1 ∧ PlaceSet (g.dir ++ [osDescDir, c.name])
      (some (.link (g.dir ++ [configsDir, c.name]).render (g.dir ++ [configsDir, c.name]))) w.tree t.1.tree) ?_ ?_
  · refine ends_io ((ends_symlink_within hM h.clean h.shaped (List.prefix_append ..)).mono_undef (fun _ w' ht => ?_)
      (fun _ w' ht => ?_) False.elim)
    · rw [hclean.2, hcclean.2] at ht
      exact ⟨rfl, ht.1.1, ht.2⟩
    · exact .of_eq h ht.2 ht.1.next
  · rintro - ⟨w₁, g₁⟩ ⟨hg, hin, hset⟩
    obtain rfl : g = g₁ := hg.symm
    obtain rfl : c.addr = a := find?_key_key hc
    exact .linkOs h hin hmem hset (h.renders hN hcm.made hfits) hlinkFits hnone

/-- `usbg_rm_os_desc_link` -/
lemma usbgRmOsDescLink_mirror (hM : Configfs M cfg) (h : GadgetMirrored cfg N w g) :
    Ends (fun _ t => MirrorStep cfg N True False w g t ∧ t.2 = g)
      (fun _ t => MirrorStep cfg N True True w g t ∧ t.2 = g) True
      (usbgRmOsDescLink M.kernel (w, g)) := by
  have hdir : g.path ++ [g.name, osDescDir] = g.dir ++ [osDescDir] := by simp [Gadget.dir]
  have hclean : (g.dir ++ [osDescDir]).Clean := h.clean.append (by simp)
  rw [usbgRmOsDescLink, self_bind_apply]
  dsimp only
  refine Ends.require_bind (fun _ => ?_) fun _ => ⟨.refl h, rfl⟩
  rw [hdir]
  refine Ends.bind (R := fun names t => t.2 = g ∧ MirrorStep cfg N True True w g t ∧
      ∀ name ∈ names, (g.dir ++ [osDescDir, name]).Clean) ?_ ?_
  · refine ends_io (ends_scandir (fun w' ht hn _ => ⟨rfl, .of_eq h ht (le_of_eq hn.symm), fun name hname => ?_⟩)
      fun _ w' _ ht hn => ⟨.of_eq h ht (le_of_eq hn.symm), rfl⟩)
    obtain ⟨n, hn, -⟩ := mem_listing.mp hname
    rw [hclean.2, List.append_assoc] at hn
    exact h.shaped.clean hn (by rw [h.dir_eq]; simp)
  · rintro names ⟨w₁, g₁⟩ ⟨hg, hstep, hnames⟩
    obtain rfl : g = g₁ := hg.symm
    cases names with
    | nil => exact ⟨hstep, rfl⟩
    | cons name names =>
      have hname := hnames name (List.mem_cons_self ..)
      have hpath : g.dir ++ [osDescDir] ++ [name] = g.dir ++ [osDescDir, name] := by simp
      refine ends_io ((usbgRmFile_within hM h.clean hstep.mirrored.shaped (hpath ▸ List.prefix_append ..)).mono_undef
        (fun _ w' ht => ?_) (fun _ w' ht => ?_) False.elim)
      · rw [hpath, hname.2] at ht
        exact ⟨(hstep.weaken (fun h => h) False.elim).seq (.unlinkOs hstep.mirrored ht.1.1 ht.2), rfl⟩
      · exact ⟨hstep.seq (.of_eq hstep.mirrored ht.1.2 ht.1.1.next), rfl⟩

/-- `usbg_set_os_desc_config` -/
lemma usbgSetOsDescConfig_mirror (hM : Configfs M cfg) (hN : N.Renders cfg) (h : GadgetMirrored cfg N w g)
    (c : Option Addr) :
    Ends (fun _ => MirrorStep cfg N True False w g) (fun _ => MirrorStep cfg N True True w g) True
      (usbgSetOsDescConfig M.kernel c (w, g)) := by
  cases c with
  | none => exact (usbgRmOsDescLink_mirror hM h).mono (fun _ _ ht => ht.1) fun _ _ ht => ht.1
  | some a =>
    rw [usbgSetOsDescConfig, self_bind_apply]
    exact Ends.require_bind (fun hnone => usbgCreateOsDescLink_mirror hM hN h hnone a) fun _ => .refl h

end Libusbgx
