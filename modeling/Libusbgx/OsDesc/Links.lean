import Libusbgx.Configfs.Calls
import Libusbgx.Creation

/-!
# The link to the configuration with the OS descriptors

A gadget remembers in `os_desc_binding` which configuration the link in its OS descriptor
directory points to.  The memory and the tree are followed through the calls that create and
remove configurations and set or unset the link.  They agree after every call in which the link
is not removed; `usbg_rm_os_desc_link` removes it and leaves the memory as it is.
-/

namespace Libusbgx

open Prog

/-- The memory of the gadget agrees with the links in its OS descriptor directory. -/
structure OsDescAgrees (T : Tree) (g : Gadget) : Prop where
  /-- what is remembered is a configuration of the gadget -/
  live : ∀ a, g.osDescBinding = some a → ∃ c ∈ g.configs, c.addr = a
  /-- something is remembered exactly when there is a link -/
  linked : g.osDescBinding ≠ none ↔
    ∃ name text target, T.get (g.path ++ [g.name, osDescDir, name]) = some (.link text target)
  /-- the link points to what is remembered -/
  target : ∀ name text target,
    T.get (g.path ++ [g.name, osDescDir, name]) = some (.link text target) →
    ∃ c ∈ g.configs, g.osDescBinding = some c.addr ∧ target = c.dir

/-- What holds of a gadget between the calls. -/
structure GadgetOs (w : World Fs) (g : Gadget) : Prop where
  clean : g.dir.Clean
  addrs : KeysNodup Config.addr g.configs
  fresh : ∀ c ∈ g.configs, c.addr < w.next
  path : ∀ c ∈ g.configs, c.path = g.path ++ [g.name, configsDir]
  named : ∀ c ∈ g.configs, c.name ≠ []
  links : ∀ c ∈ g.configs, BindingsBelow (g.path ++ [g.name, configsDir]) c
  agrees : OsDescAgrees w.tree g

/-- What a call on a gadget leaves behind: other gadgets are not touched. -/
structure GadgetOsStep (w : World Fs) (g : Gadget) (t : World Fs × Gadget) : Prop where
  os : GadgetOs t.1 t.2
  outside : Machine.Outside g.dir w.tree t.1.tree
  next : w.next ≤ t.1.next
  core : t.2.core = g.core

/-- Two gadgets with the same members but for the bindings of their configurations. -/
structure SameConfigs (g g' : Gadget) : Prop where
  core : g'.core = g.core
  os : g'.osDescBinding = g.osDescBinding
  configs : g'.configs.map Config.core = g.configs.map Config.core

variable {M : Machine} {w w' : World Fs} {g g' : Gadget}

namespace SameConfigs

/-- Every configuration of the one is one of the other up to its bindings. -/
lemma config (h : SameConfigs g g') {c : Config} (hc : c ∈ g.configs) :
    ∃ c' ∈ g'.configs, c'.core = c.core := by
  have : c.core ∈ g'.configs.map Config.core := h.configs ▸ List.mem_map_of_mem hc
  obtain ⟨c', hc', he⟩ := List.mem_map.mp this
  exact ⟨c', hc', he⟩

lemma symm (h : SameConfigs g g') : SameConfigs g' g := ⟨h.core.symm, h.os.symm, h.configs.symm⟩

lemma addrs (h : SameConfigs g g') (hg : KeysNodup Config.addr g.configs) :
    KeysNodup Config.addr g'.configs := by
  have hmap : ∀ l : List Config, l.map Config.addr = (l.map Config.core).map Config.Core.addr :=
    fun l => by rw [List.map_map]; rfl
  rw [KeysNodup, hmap, h.configs, ← hmap]
  exact hg

/-- Only the bindings of one configuration change. -/
lemma setConfig (h : SameConfigs g g') (hg : KeysNodup Config.addr g.configs) {a : Addr}
    {c c' : Config} (hc : g'.config? a = some c) (he : c'.core = c.core) :
    SameConfigs g (g'.setConfig c') where
  core := h.core
  os := h.os
  configs := by
    rw [← h.configs, Gadget.setConfig, List.map_map]
    refine List.map_congr_left fun d hd => ?_
    by_cases hda : d.addr = c'.addr
    · have hca : c'.addr = c.addr := congrArg Config.Core.addr he
      obtain rfl : d = c := (h.addrs hg).eq hd (find?_key_mem hc) (hda.trans hca)
      rw [Function.comp_apply, if_pos hda, he]
    · rw [Function.comp_apply, if_neg hda]

end SameConfigs

namespace OsDescAgrees

variable {T T' : Tree}

/-- The links in the directory and the remembered configuration are all that matters. -/
lemma congr (h : OsDescAgrees T g) (hcore : g'.core = g.core)
    (hos : g'.osDescBinding = g.osDescBinding)
    (hget : ∀ name, T'.get (g.path ++ [g.name, osDescDir, name]) =
      T.get (g.path ++ [g.name, osDescDir, name]))
    (hconf : ∀ c ∈ g.configs, g.osDescBinding = some c.addr → ∃ c' ∈ g'.configs, c'.core = c.core) :
    OsDescAgrees T' g' := by
  have hpath : g'.path = g.path := congrArg Gadget.Core.path hcore
  have hname : g'.name = g.name := congrArg Gadget.Core.name hcore
  constructor
  · intro a ha
    rw [hos] at ha
    obtain ⟨c, hc, rfl⟩ := h.live a ha
    obtain ⟨c', hc', he⟩ := hconf c hc ha
    exact ⟨c', hc', congrArg Config.Core.addr he⟩
  · rw [hos, hpath, hname, h.linked]
    simp only [hget]
  · intro name text target hl
    rw [hpath, hname, hget] at hl
    obtain ⟨c, hc, ho, ht⟩ := h.target name text target hl
    obtain ⟨c', hc', he⟩ := hconf c hc ho
    refine ⟨c', hc', ?_, ?_⟩
    · rw [hos, ho, show c'.addr = c.addr from congrArg Config.Core.addr he]
    · rw [ht, Config.dir, Config.dir, show c'.path = c.path from congrArg Config.Core.path he,
        show c'.name = c.name from congrArg Config.Core.name he]

end OsDescAgrees

namespace GadgetOs

/-- Nothing below the configurations matters for the link. -/
lemma outside_configs (name : CStr) :
    ¬ g.path ++ [g.name, configsDir] <+: g.path ++ [g.name, osDescDir, name] := by
  rw [List.prefix_append_right_inj]
  simp [List.cons_prefix_cons]

/-- Changes below the configurations, and to the bindings. -/
lemma congr (h : GadgetOs w g) (hg : SameConfigs g g') (hn : w.next ≤ w'.next)
    (hout : Machine.Outside (g.path ++ [g.name, configsDir]) w.tree w'.tree)
    (hlinks : ∀ c ∈ g'.configs, BindingsBelow (g.path ++ [g.name, configsDir]) c) :
    GadgetOs w' g' := by
  have hpath : g'.path = g.path := congrArg Gadget.Core.path hg.core
  have hname : g'.name = g.name := congrArg Gadget.Core.name hg.core
  refine ⟨?_, ?_, ?_, ?_, ?_, by rwa [hpath, hname], ?_⟩
  · rw [Gadget.dir, hpath, hname]
    exact h.clean
  · exact hg.addrs h.addrs
  · intro c' hc'
    obtain ⟨c, hc, he⟩ := hg.symm.config hc'
    rw [← show c.addr = c'.addr from congrArg Config.Core.addr he]
    exact lt_of_lt_of_le (h.fresh c hc) hn
  · intro c' hc'
    obtain ⟨c, hc, he⟩ := hg.symm.config hc'
    rw [← show c.path = c'.path from congrArg Config.Core.path he, hpath, hname]
    exact h.path c hc
  · intro c' hc'
    obtain ⟨c, hc, he⟩ := hg.symm.config hc'
    rw [← show c.name = c'.name from congrArg Config.Core.name he]
    exact h.named c hc
  · exact h.agrees.congr hg.core hg.os (fun name => hout _ (outside_configs name))
      fun c hc _ => hg.config hc

lemma config_clean (h : GadgetOs w g) {c : Config} (hc : c ∈ g.configs) : c.dir.Clean := by
  have : c.dir = g.dir ++ [configsDir, c.name] := by
    rw [Config.dir, h.path c hc, Gadget.dir]
    simp
  rw [this]
  refine h.clean.append fun name hname => ?_
  rcases List.mem_cons.mp hname with rfl | hname
  · exact configsDir_ne_nil
  · rw [List.mem_singleton.mp hname]
    exact h.named c hc

end GadgetOs

namespace GadgetOsStep

/-- Changes below the configurations, and to the bindings. -/
lemma of_congr (h : GadgetOs w g) (hg : SameConfigs g g') (hn : w.next ≤ w'.next)
    (hout : Machine.Outside (g.path ++ [g.name, configsDir]) w.tree w'.tree)
    (hlinks : ∀ c ∈ g'.configs, BindingsBelow (g.path ++ [g.name, configsDir]) c) :
    GadgetOsStep w g (w', g') where
  os := h.congr hg hn hout hlinks
  outside := hout.mono (by rw [Gadget.dir, List.prefix_append_right_inj]; simp)
  next := hn
  core := hg.core

/-- A gadget that a failed call has left as it was. -/
lemma unchanged (h : GadgetOs w g) (ht : w'.tree = w.tree) (hn : w.next ≤ w'.next) :
    GadgetOsStep w g (w', g) :=
  of_congr h ⟨rfl, rfl, rfl⟩ hn (fun q _ => by rw [ht]) h.links

/-- One call after the other. -/
lemma trans {t : World Fs × Gadget} (h : GadgetOsStep w g (w', g')) (h' : GadgetOsStep w' g' t) :
    GadgetOsStep w g t where
  os := h'.os
  outside := by
    have hd : g'.dir = g.dir := by
      rw [Gadget.dir, Gadget.dir, show g'.path = g.path from congrArg Gadget.Core.path h.core,
        show g'.name = g.name from congrArg Gadget.Core.name h.core]
    have := h'.outside
    rw [hd] at this
    exact h.outside.trans this
  next := h.next.trans h'.next
  core := h'.core.trans h.core

end GadgetOsStep

/-! ## Creating a configuration -/

/-- A new configuration does not touch the link. -/
lemma usbgCreateConfig_os (h : GadgetOs w g) {id : ℤ} {label : Option CStr}
    {attrs : Option ConfigAttrs} {strs : Option ConfigStrs} :
    Ends (fun _ => GadgetOsStep w g) (fun _ => GadgetOsStep w g) True
      (usbgCreateConfig M.kernel id label attrs strs (w, g)) := by
  have hclean : (g.path ++ [g.name, configsDir]).Clean := by
    have := h.clean.append (q := [configsDir]) (by simp)
    rwa [Gadget.dir, List.append_assoc] at this
  have hst := (Machine.stable_outside M hclean w.tree).and_next w.next
  refine (usbgCreateConfig_ends hst ⟨fun _ _ => rfl, le_refl _⟩ (List.prefix_append ..)).mono ?_ ?_
  · rintro _ ⟨w', g'⟩ ⟨⟨hout, hn⟩, -, hlt, rfl⟩
    have hperm : (insertSorted Config.name (newConfig g id label w.next) g.configs).Perm
        (newConfig g id label w.next :: g.configs) := insertSorted_perm
    refine ⟨⟨h.clean, ?_, fun c hc => ?_, fun c hc => ?_, fun c hc => ?_, fun c hc => ?_, ?_⟩, ?_, hn,
      rfl⟩
    · refine KeysNodup.perm (h.addrs.cons fun c hc he => ?_) hperm
      exact absurd (h.fresh c hc) (by rw [he]; exact lt_irrefl _)
    · rcases List.mem_cons.mp (hperm.mem_iff.mp hc) with rfl | hc
      · exact hlt
      · exact lt_of_lt_of_le (h.fresh c hc) hn
    · rcases List.mem_cons.mp (hperm.mem_iff.mp hc) with rfl | hc
      · rfl
      · exact h.path c hc
    · rcases List.mem_cons.mp (hperm.mem_iff.mp hc) with rfl | hc
      · simp [newConfig, configName]
      · exact h.named c hc
    · rcases List.mem_cons.mp (hperm.mem_iff.mp hc) with rfl | hc
      · exact fun b hb => absurd hb List.not_mem_nil
      · exact h.links c hc
    · exact h.agrees.congr rfl rfl (fun name => hout _ (GadgetOs.outside_configs name))
        fun c hc _ => ⟨c, hperm.mem_iff.mpr (List.mem_cons_of_mem _ hc), rfl⟩
    · exact hout.mono (by rw [Gadget.dir, List.prefix_append_right_inj]; simp)
  · rintro _ ⟨w', g'⟩ ⟨⟨hout, hn⟩, rfl⟩
    exact .of_congr h ⟨rfl, rfl, rfl⟩ hn hout h.links

/-! ## Setting the link -/

/-- Setting the link makes the gadget remember it. -/
lemma usbgSetOsDescConfig_os (h : GadgetOs w g) (a : Addr) :
    Ends (fun _ => GadgetOsStep w g) (fun _ => GadgetOsStep w g) True
      (usbgSetOsDescConfig M.kernel (some a) (w, g)) := by
  rw [usbgSetOsDescConfig, self_bind_apply]
  refine Ends.require_bind (fun hnone => ?_) fun _ => .unchanged h rfl (le_refl _)
  rw [usbgCreateOsDescLink, self_bind_apply]
  refine Ends.deref_bind (fun c hc => ?_) fun _ => trivial
  have hmem : c ∈ g.configs := find?_key_mem hc
  have haddr : c.addr = a := find?_key_key hc
  refine Ends.require_bind (fun _ => ?_) fun _ => .unchanged h rfl (le_refl _)
  refine Ends.require_bind (fun _ => ?_) fun _ => .unchanged h rfl (le_refl _)
  rcases M.call_cases (.symlink (c.path ++ [c.name]) (g.path ++ [g.name, osDescDir, c.name])) w with
    ⟨e, w', hw, -, ht, hn⟩ | ⟨_, w', hw, ht, hn⟩
  · exact Ends.of_eq (bind_fail (io_fail hw)) (.unchanged h ht (le_of_eq hn.symm))
  · refine Ends.of_eq (bind_ok (io_ok hw)) ?_
    have hlink : (g.path ++ [g.name, osDescDir, c.name]).Clean := by
      have := h.clean.append (q := [osDescDir, c.name]) (by simp [h.named c hmem])
      rwa [Gadget.dir, List.append_assoc] at this
    have hdir : (c.path ++ [c.name]).resolve = c.dir := (h.config_clean hmem).2
    have ht := Machine.symlink_eq_ok.mp (Machine.exec_symlink.mp ht)
    rw [hlink.2, hdir] at ht
    obtain ⟨hfree, -, -, -, ht⟩ := ht
    have hget : ∀ q, w'.tree.get q = (w.tree.get q).or
        (if g.path ++ [g.name, osDescDir, c.name] = q then
          some (.link (c.path ++ [c.name]).render c.dir) else none) := fun q => by
      rw [ht, FileTree.get_add]
    have hbelow : g.path ++ [g.name] <+: g.path ++ [g.name, osDescDir, c.name] := by
      rw [List.prefix_append_right_inj]
      simp
    refine ⟨⟨h.clean, h.addrs, fun c hc => lt_of_lt_of_le (h.fresh c hc) (le_of_eq hn.symm), h.path,
      h.named, h.links, ⟨?_, ?_, ?_⟩⟩, fun q hq => ?_, le_of_eq hn.symm, rfl⟩
    · rintro _ ⟨⟩
      exact ⟨c, hmem, haddr⟩
    · refine ⟨fun _ => ⟨c.name, (c.path ++ [c.name]).render, c.dir, ?_⟩, fun _ => by simp⟩
      rw [hget, hfree, if_pos rfl]
      rfl
    · intro name text target hl
      rw [hget] at hl
      rcases hold : w.tree.get (g.path ++ [g.name, osDescDir, name]) with _ | n
      · rw [hold, Option.none_or] at hl
        split at hl
        · obtain ⟨-, rfl⟩ := Node.link.inj (Option.some.inj hl)
          exact ⟨c, hmem, by rw [haddr], rfl⟩
        · cases hl
      · -- there was no link before
        rw [hold, Option.some_or] at hl
        obtain rfl := Option.some.inj hl
        exact absurd hnone (h.agrees.linked.mpr ⟨name, text, target, hold⟩)
    · show w'.tree.get q = w.tree.get q
      have hne : g.path ++ [g.name, osDescDir, c.name] ≠ q := by
        rintro rfl
        exact hq hbelow
      rw [hget, if_neg hne, Option.or_none]

/-! ## Unsetting the link -/

/-- The link that `usbg_rm_os_desc_link` finds cannot be removed. -/
def OsLinkStays (M : Machine) (w : World Fs) (g : Gadget) : Prop :=
  ∀ name names w', scandir M.kernel (g.path ++ [g.name, osDescDir]) bindingsSelect w =
    (.ok (name :: names), w') →
    (usbgRmFile M.kernel (g.path ++ [g.name, osDescDir]) name w').1 ≠ .ok ()

/-- Then the call fails, and nothing has changed. -/
lemma usbgRmOsDescLink_os (h : GadgetOs w g) (hstays : OsLinkStays M w g) :
    Ends (fun _ _ => False) (fun _ => GadgetOsStep w g) True
      (usbgRmOsDescLink M.kernel (w, g)) := by
  rw [usbgRmOsDescLink, self_bind_apply]
  refine Ends.require_bind (fun _ => ?_) fun _ => .unchanged h rfl (le_refl _)
  have hends : Ends (fun _ w' => w'.tree = w.tree ∧ w'.next = w.next)
      (fun _ w' => w'.tree = w.tree ∧ w'.next = w.next) True
      (scandir M.kernel (g.path ++ [g.name, osDescDir]) bindingsSelect w) :=
    Machine.ends_scandir (fun _ ht hn _ => ⟨ht, hn⟩) fun _ _ _ ht hn => ⟨ht, hn⟩
  rcases hs : scandir M.kernel (g.path ++ [g.name, osDescDir]) bindingsSelect w with
    ⟨names | e | _, w₁⟩
  · rw [hs] at hends
    obtain ⟨ht, hn⟩ := hends
    refine Ends.of_eq (bind_ok (io_ok hs)) ?_
    cases names with
    | nil => exact .unchanged h ht (le_of_eq hn.symm)
    | cons name names =>
      have hno := hstays name names w₁ hs
      refine ends_io ?_
      rcases hr : usbgRmFile M.kernel (g.path ++ [g.name, osDescDir]) name w₁ with ⟨_ | e | _, w₂⟩
      · exact absurd (by rw [hr]) hno
      · have hends : Ends (fun _ _ => True) (fun _ w' => w'.tree = w₁.tree ∧ w'.next = w₁.next) True
            (usbgRmFile M.kernel (g.path ++ [g.name, osDescDir]) name w₁) :=
          Machine.ends_usbgRmFile (fun _ _ _ => trivial) fun _ _ _ ht hn => ⟨ht, hn⟩
        rw [hr] at hends
        exact .unchanged h (hends.1.trans ht) (le_of_eq (hends.2.trans hn).symm)
      · trivial
  · rw [hs] at hends
    exact Ends.of_eq (bind_fail (io_fail hs)) (.unchanged h hends.1 (le_of_eq hends.2.symm))
  · exact Ends.of_eq (bind_undef (io_undef hs)) trivial

/-! ## Removing a configuration -/

/-- What is left to do once the content of a configuration has gone: the directory of the
configuration with the link cannot be removed. -/
lemma rmConfigDir_os (h : GadgetOs w g) {c : Config} (hc : ∃ c' ∈ g.configs, c'.core = c.core) :
    Ends (fun _ => GadgetOsStep w g) (fun _ => GadgetOsStep w g) True
      ((do
        io (usbgRmDir M.kernel c.path c.name)
        update fun g => { g with configs := g.configs.filter (·.addr ≠ c.addr) } :
          On Fs Gadget Unit) (w, g)) := by
  obtain ⟨c', hc', he⟩ := hc
  have haddr : c'.addr = c.addr := congrArg Config.Core.addr he
  have hdir : c'.dir = c.path ++ [c.name] := by
    rw [Config.dir, show c'.path = c.path from congrArg Config.Core.path he,
      show c'.name = c.name from congrArg Config.Core.name he]
  have hends : Ends (fun _ w' => Machine.rmdir w.tree c'.dir = .ok w'.tree ∧ w'.next = w.next)
      (fun _ w' => w'.tree = w.tree ∧ w'.next = w.next) True
      (usbgRmDir M.kernel c.path c.name w) := by
    refine Machine.ends_usbgRmDir (fun w' hr hn => ⟨?_, hn⟩) fun _ _ _ ht hn => ⟨ht, hn⟩
    rwa [← hdir, (h.config_clean hc').2] at hr
  refine Ends.bind (R := fun _ t => Machine.rmdir w.tree c'.dir = .ok t.1.tree ∧
    t.1.next = w.next ∧ t.2 = g) (ends_io (hends.mono (fun _ w' hw => ⟨hw.1, hw.2, rfl⟩)
      fun _ w' hw => .unchanged h hw.1 (le_of_eq hw.2.symm))) ?_
  rintro _ ⟨w', g⟩ ⟨hr, hn, rfl⟩
  obtain ⟨-, -, hpinned, ht⟩ := Machine.rmdir_eq_ok.mp hr
  have hget : ∀ q, ¬ g.path ++ [g.name, configsDir] <+: q → w'.tree.get q = w.tree.get q := by
    intro q hq
    have : ¬ c'.dir <+: q := fun hc => hq <| by
      rw [Config.dir, h.path c' hc'] at hc
      exact (List.prefix_append ..).trans hc
    rw [ht, FileTree.get_prune, if_neg this]
  -- no link points to the configuration, so it is not the one that is remembered
  have hos : ∀ a, g.osDescBinding = some a → a ≠ c.addr := by
    rintro a ha rfl
    obtain ⟨name, text, target, hl⟩ := h.agrees.linked.mp (by rw [ha]; simp)
    obtain ⟨d, hd, hda, rfl⟩ := h.agrees.target name text target hl
    have : d = c' := h.addrs.eq hd hc' <| by
      rw [ha] at hda
      exact (Option.some.inj hda).symm.trans haddr.symm
    subst this
    exact hpinned (FileTree.pinned_iff.mpr ⟨_, text, hl⟩)
  refine ⟨⟨h.clean, h.addrs.filter _, fun d hd => ?_, fun d hd => ?_, fun d hd => ?_,
    fun d hd => ?_, ?_⟩, ?_, le_of_eq hn.symm, rfl⟩
  · exact lt_of_lt_of_le (h.fresh d (List.mem_of_mem_filter hd)) (le_of_eq hn.symm)
  · exact h.path d (List.mem_of_mem_filter hd)
  · exact h.named d (List.mem_of_mem_filter hd)
  · exact h.links d (List.mem_of_mem_filter hd)
  · refine h.agrees.congr rfl rfl (fun name => hget _ (GadgetOs.outside_configs name))
      fun d hd ho => ⟨d, List.mem_filter.mpr ⟨hd, ?_⟩, rfl⟩
    simpa using hos d.addr ho
  · refine fun q hq => hget q fun hc => hq (List.IsPrefix.trans ?_ hc)
    rw [Gadget.dir, List.prefix_append_right_inj]
    simp

/-- The gadgets that only differ from `g` in the bindings of their configurations. -/
lemma configsBelow_sameConfigs (h : GadgetOs w g) :
    ConfigsBelow (g.path ++ [g.name, configsDir]) fun g' => SameConfigs g g' ∧
      ∀ c ∈ g'.configs, BindingsBelow (g.path ++ [g.name, configsDir]) c where
  config g' hg' c' hc' := by
    obtain ⟨c, hc, he⟩ := hg'.1.symm.config hc'
    refine ⟨?_, hg'.2 c' hc'⟩
    rw [← show c.path = c'.path from congrArg Config.Core.path he, h.path c hc]
    exact List.prefix_append ..
  put g' a c c' hg' hc he hb := by
    refine ⟨hg'.1.setConfig h.addrs hc he, fun d hd => ?_⟩
    obtain ⟨d', hd', rfl⟩ := List.mem_map.mp hd
    split
    · exact hb
    · exact hg'.2 d' hd'

/-- Emptying a configuration changes neither the link nor what is remembered, unless it takes the
link away. -/
lemma rmConfigContent_os (h : GadgetOs w g) {c : Config} (hc : c ∈ g.configs)
    (hstays : g.osDescBinding = some c.addr → OsLinkStays M w g) :
    Ends (fun _ t => GadgetOsStep w g t ∧ SameConfigs g t.2) (fun _ => GadgetOsStep w g) True
      (rmConfigContent M.kernel c (w, g)) := by
  by_cases hos : g.osDescBinding = some c.addr
  · rw [rmConfigContent, self_bind_apply, when_of hos]
    exact Ends.bind ((usbgRmOsDescLink_os h (hstays hos)).mono (fun _ _ hf => hf) fun _ _ hg => hg)
      fun _ _ hf => hf.elim
  · have hclean : (g.path ++ [g.name, configsDir]).Clean := by
      have := h.clean.append (q := [configsDir]) (by simp)
      rwa [Gadget.dir, List.append_assoc] at this
    have hst := (Machine.stable_outside M hclean w.tree).and_next w.next
    have hbelow : g.path ++ [g.name, configsDir] <+: c.path ++ [c.name] := by
      rw [h.path c hc]
      exact List.prefix_append ..
    have hkeep := hst.keeps_rmConfigContent (configsBelow_sameConfigs h) hbelow fun hlinked =>
      hlinked.elim fun g' hg' => absurd (hg'.1.1.os.symm.trans hg'.2) hos
    refine (hkeep.ends ⟨⟨fun _ _ => rfl, le_refl _⟩, ⟨rfl, rfl, rfl⟩, h.links⟩).mono ?_ ?_
    · rintro _ ⟨w', g'⟩ ⟨⟨hout, hn⟩, hsame, hlinks⟩
      exact ⟨.of_congr h hsame hn hout hlinks, hsame⟩
    · rintro _ ⟨w', g'⟩ ⟨⟨hout, hn⟩, hsame, hlinks⟩
      exact .of_congr h hsame hn hout hlinks

/-- Removing a configuration keeps memory and tree in agreement, unless it takes the link away. -/
lemma usbgRmConfig_os (h : GadgetOs w g) {a : Addr} {opts : RmOpts}
    (hstays : opts → g.osDescBinding = some a → OsLinkStays M w g) :
    Ends (fun _ => GadgetOsStep w g) (fun _ => GadgetOsStep w g) True
      (usbgRmConfig M.kernel a opts (w, g)) := by
  rw [usbgRmConfig, self_bind_apply]
  refine Ends.deref_bind (fun c hc => ?_) fun _ => trivial
  have hmem : c ∈ g.configs := find?_key_mem hc
  obtain rfl : c.addr = a := find?_key_key hc
  refine Ends.bind (R := fun _ t => GadgetOsStep w g t ∧ SameConfigs g t.2) ?_ ?_
  · exact Ends.when (fun ho => rmConfigContent_os h hmem (hstays ho)) fun _ =>
      ⟨.unchanged h rfl (le_refl _), rfl, rfl, rfl⟩
  · rintro _ ⟨w', g'⟩ ⟨hstep, hsame⟩
    exact (rmConfigDir_os hstep.os (hsame.config hmem)).mono (fun _ _ ht => hstep.trans ht)
      fun _ _ ht => hstep.trans ht

end Libusbgx
