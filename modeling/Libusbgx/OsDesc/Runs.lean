import Libusbgx.Base.Run
import Libusbgx.Configfs.WellFormed
import Libusbgx.OsDesc.Links

/-!
# Runs of the calls around the OS descriptor link

What every call on one gadget preserves, holds of all gadgets after every run, and it holds when
`usbg_init` has read a tree as the kernel builds it.  It is lost when the link is unset:
`usbg_set_os_desc_config` with the null pointer leaves `os_desc_binding` as it was.
-/

namespace Libusbgx

open Prog Machine

variable {M : Machine} {w w' : World Fs} {g g' : Gadget} {s : State} {t : World Fs × State}

/-! ## All gadgets -/

/-- What holds of all gadgets between the calls. -/
structure OsInv (t : World Fs × State) : Prop where
  path : ∀ g ∈ t.2.gadgets, g.path = t.2.path
  names : KeysNodup Gadget.name t.2.gadgets
  addrs : KeysNodup Gadget.addr t.2.gadgets
  gadgets : ∀ g ∈ t.2.gadgets, GadgetOs t.1 g

/-- A gadget none of whose links has changed. -/
lemma GadgetOs.frame (h : GadgetOs w g) (hn : w.next ≤ w'.next)
    (hget : ∀ name, w'.tree.get (g.path ++ [g.name, osDescDir, name]) =
      w.tree.get (g.path ++ [g.name, osDescDir, name])) : GadgetOs w' g :=
  { h with
    fresh := fun c hc => lt_of_lt_of_le (h.fresh c hc) hn
    agrees := h.agrees.congr rfl rfl hget fun c hc _ => ⟨c, hc, rfl⟩ }

/-- A call on one gadget leaves the others alone. -/
lemma OsInv.setGadget (h : OsInv (w, s)) (hg : g ∈ s.gadgets) (hstep : GadgetOsStep w g (w', g')) :
    OsInv (w', s.setGadget g') := by
  have hcore : g'.core = g.core := hstep.core
  have haddr : g'.addr = g.addr := congrArg Gadget.Core.addr hcore
  have hmem : ∀ d ∈ (s.setGadget g').gadgets, d = g' ∨ d ∈ s.gadgets ∧ d.addr ≠ g.addr := by
    intro d hd
    obtain ⟨d', hd', rfl⟩ := List.mem_map.mp hd
    split
    · exact .inl rfl
    · next hne => exact .inr ⟨hd', by rwa [haddr] at hne⟩
  have hmap : ∀ {β : Type} (key : Gadget → β), key g' = key g →
      (s.setGadget g').gadgets.map key = s.gadgets.map key := by
    intro β key hkey
    rw [State.setGadget, List.map_map]
    refine List.map_congr_left fun d hd => ?_
    by_cases hda : d.addr = g'.addr
    · obtain rfl : d = g := h.addrs.eq hd hg (hda.trans haddr)
      rw [Function.comp_apply, if_pos hda, hkey]
    · rw [Function.comp_apply, if_neg hda]
  refine ⟨fun d hd => ?_, ?_, ?_, fun d hd => ?_⟩
  · rcases hmem d hd with rfl | ⟨hd, -⟩
    · exact (congrArg Gadget.Core.path hcore).trans (h.path g hg)
    · exact h.path d hd
  · show ((s.setGadget g').gadgets.map Gadget.name).Nodup
    rw [hmap Gadget.name (congrArg Gadget.Core.name hcore)]
    exact h.names
  · show ((s.setGadget g').gadgets.map Gadget.addr).Nodup
    rw [hmap Gadget.addr haddr]
    exact h.addrs
  · rcases hmem d hd with rfl | ⟨hd, hne⟩
    · exact hstep.os
    · refine (h.gadgets d hd).frame hstep.next fun name => hstep.outside _ fun hpre => hne ?_
      -- another gadget has another name, so its links are elsewhere
      rw [Gadget.dir, h.path g hg, h.path d hd, List.prefix_append_right_inj,
        List.cons_prefix_cons] at hpre
      rw [h.names.eq hd hg hpre.1.symm]

/-- What a call on a gadget preserves, the call preserves on the gadget of a state. -/
lemma onGadget_os {a : Addr} {m : On Fs Gadget Unit} (h : OsInv t)
    (hm : ∀ g, t.2.gadget? a = some g → GadgetOs t.1 g →
      Ends (fun _ => GadgetOsStep t.1 g) (fun _ => GadgetOsStep t.1 g) True (m (t.1, g))) :
    Ends (fun _ => OsInv) (fun _ => OsInv) True (onGadget a m t) := by
  obtain ⟨w, s⟩ := t
  rw [onGadget]
  cases hg : s.gadget? a with
  | none =>
    rw [zoom_none (by rw [hg]; rfl)]
    trivial
  | some g =>
    rw [zoom_some (t := (w, g)) (by rw [hg]; rfl)]
    have hmem : g ∈ s.gadgets := find?_key_mem hg
    have hends := hm g hg (h.gadgets g hmem)
    rcases hr : m (w, g) with ⟨_ | e | _, w', g'⟩
    · rw [hr] at hends
      exact h.setGadget hmem hends
    · rw [hr] at hends
      exact h.setGadget hmem hends
    · trivial

/-! ## After `usbg_init` -/

/-- The links in the OS descriptor directories are as the kernel makes them: one at most, to the
directory of a numbered configuration of the same gadget. -/
structure OsLinksValid (T : Tree) (cfg : CStr) : Prop where
  one : ∀ g name name' n n', T.get [cfg, gadgetsDir, g, osDescDir, name] = some n → n.isLink →
    T.get [cfg, gadgetsDir, g, osDescDir, name'] = some n' → n'.isLink → name = name'
  target : ∀ g name text target,
    T.get [cfg, gadgetsDir, g, osDescDir, name] = some (.link text target) →
    ∃ conf pre, Numbered conf ∧ cutLast '/' (linkText text) = some (pre, conf) ∧
      target = [cfg, gadgetsDir, g, configsDir, conf] ∧ T.IsDir target

/-- What `usbg_init` remembers agrees with the link it has found. -/
lemma ParsedGadget.osDescAgrees {T : Tree} {cfg : CStr} {lo hi : Addr} (htree : ConfigfsTree T cfg)
    (hapart : ConfigsApart T cfg) (hlinks : OsLinksValid T cfg) (h : ParsedGadget T lo hi g)
    (hpath : g.path = [cfg, gadgetsDir])
    (hgname : g.name ∈ listing T (Path.resolve [cfg, gadgetsDir]) fileSelect)
    (hcclean : (g.path ++ [g.name, configsDir]).Clean)
    (hoclean : (g.path ++ [g.name, osDescDir]).Clean) : OsDescAgrees T g := by
  have hpathOs : ∀ name, g.path ++ [g.name, osDescDir, name] =
      [cfg, gadgetsDir, g.name, osDescDir, name] := fun name => by rw [hpath]; rfl
  have happ : ∀ name, g.path ++ [g.name, osDescDir] ++ [name] =
      [cfg, gadgetsDir, g.name, osDescDir, name] := fun name => by rw [hpath]; rfl
  -- the links are those of the listing
  have hlisting : ∀ name, name ∈ listing T (g.path ++ [g.name, osDescDir]).resolve bindingsSelect ↔
      ∃ text target, T.get [cfg, gadgetsDir, g.name, osDescDir, name] = some (.link text target) := by
    intro name
    rw [hoclean.2, mem_listing, happ]
    constructor
    · rintro ⟨n, hn, hsel⟩
      obtain ⟨text, target, rfl⟩ := Node.isLink_iff.mp hsel
      exact ⟨text, target, hn⟩
    · rintro ⟨text, target, hn⟩
      exact ⟨_, hn, rfl⟩
  have ho := h.osDesc
  rw [ParsedOsDesc] at ho
  cases hl : listing T (g.path ++ [g.name, osDescDir]).resolve bindingsSelect with
  | nil =>
    rw [hl] at ho hlisting
    refine ⟨fun a ha => ?_, ⟨fun hne => absurd ho hne, ?_⟩, fun name text target hlink => ?_⟩
    · rw [ho] at ha
      cases ha
    · rintro ⟨name, text, target, hlink⟩
      exact absurd ((hlisting name).mpr ⟨text, target, by rwa [← hpathOs]⟩) List.not_mem_nil
    · exact absurd ((hlisting name).mpr ⟨text, target, by rwa [← hpathOs]⟩) List.not_mem_nil
  | cons first names =>
    rw [hl] at ho
    obtain ⟨text, target, hfirst⟩ := (hlisting first).mp (by rw [hl]; simp)
    obtain ⟨conf, pre, ⟨label, id, hsplit, hid⟩, hcut, htarget, hdir⟩ :=
      hlinks.target _ _ _ _ hfirst
    obtain ⟨part, label', id', ⟨text', target', pre', hget, hcut'⟩, hsplit', hos⟩ := ho
    -- the last part of the link is the name of the configuration
    have hne : first ≠ [] := by
      refine htree.name_ne hoclean.1 (n := .link text target) ?_
      rw [happ]
      exact hfirst
    rw [(hoclean.append (q := [first]) (by simpa using hne)).2, happ, hfirst] at hget
    obtain ⟨rfl, rfl⟩ := Node.link.inj (Option.some.inj hget)
    rw [hcut] at hcut'
    obtain ⟨rfl, rfl⟩ := Prod.mk.inj (Option.some.inj hcut')
    rw [hsplit] at hsplit'
    obtain ⟨rfl, rfl⟩ := Prod.mk.inj (Except.ok.inj hsplit')
    obtain ⟨h0, -⟩ | ⟨c, hc, rfl, rfl, hos⟩ := hos
    · exact absurd h0 hid
    obtain ⟨name, hname, hp⟩ := h.config hc
    rw [hpath] at hcclean hname hp
    have hcname : c.name = name := hp.name_eq_of_apart hapart hgname hcclean hname
    have hcdir : target = c.dir := by
      have hmem : conf ∈ listing T (Path.resolve [cfg, gadgetsDir, g.name, configsDir]) fileSelect := by
        obtain ⟨b, hb⟩ := FileTree.isDir_iff.mp hdir
        rw [htarget] at hb
        have hclean : Path.resolve [cfg, gadgetsDir, g.name, configsDir] = [cfg, gadgetsDir, g.name, configsDir] :=
          hcclean.2
        rw [hclean]
        exact mem_listing.mpr ⟨_, hb, fileSelect_of_numbered ⟨_, _, hsplit, hid⟩ _⟩
      have hconf : conf = name := hapart g.name hgname conf hmem ⟨_, _, hsplit, hid⟩ name hname
        (congrArg Except.toOption (hsplit.trans hp.split.symm))
      rw [htarget, hconf, Config.dir, hp.path, hcname]
      rfl
    refine ⟨fun a ha => ?_, ⟨fun _ => ⟨first, text, target, ?_⟩, fun _ => ?_⟩,
      fun name' text' target' hlink => ⟨c, hc, hos, ?_⟩⟩
    · rw [hos] at ha
      exact ⟨c, hc, Option.some.inj ha⟩
    · rw [hpathOs]
      exact hfirst
    · rw [hos]
      simp
    · rw [hpathOs] at hlink
      obtain rfl := hlinks.one _ _ _ _ _ hfirst rfl hlink rfl
      rw [hfirst] at hlink
      rw [← (Node.link.inj (Option.some.inj hlink)).2]
      exact hcdir

lemma ParsedGadget.gadgetOs {cfg : CStr} {lo : Addr} (htree : ConfigfsTree w.tree cfg)
    (hapart : ConfigsApart w.tree cfg) (hlinks : OsLinksValid w.tree cfg) (ht : w'.tree = w.tree)
    (h : ParsedGadget w.tree lo w'.next g) (hpath : g.path = [cfg, gadgetsDir])
    (hname : g.name ∈ listing w.tree (Path.resolve [cfg, gadgetsDir]) fileSelect) :
    GadgetOs w' g := by
  have hclean := clean_gadgetsPath cfg
  have hgname : g.name ≠ [] := htree.mem_listing hclean hname
  have hcclean : (g.path ++ [g.name, configsDir]).Clean := by
    rw [hpath]
    exact hclean.append (by simp [hgname])
  have hoclean : (g.path ++ [g.name, osDescDir]).Clean := by
    rw [hpath]
    exact hclean.append (by simp [hgname])
  refine ⟨?_, h.configAddrs.nodup, fun c hc => ?_, fun c hc => ?_, fun c hc => ?_,
    fun c hc b hb => ?_, ?_⟩
  · rw [Gadget.dir, hpath]
    exact hclean.append (by simp [hgname])
  · exact (h.configAddrs.range c.addr (List.mem_map_of_mem hc)).2
  · obtain ⟨name, -, hp⟩ := h.config hc
    exact hp.path
  · obtain ⟨name, -, hp⟩ := h.config hc
    simp [hp.name_eq, configName]
  · obtain ⟨name, -, hp⟩ := h.config hc
    obtain ⟨link, -, hbp⟩ := exists_of_forall₂ hp.bindings hb
    rw [hbp.path, Config.dir, hp.path, List.append_assoc]
    exact List.prefix_append ..
  · rw [ht]
    exact h.osDescAgrees htree hapart hlinks hpath hname hcclean hoclean

/-- A successful `usbg_init` leaves memory and tree in agreement. -/
lemma usbgInit_osInv {cfg : CStr} (htree : ConfigfsTree w.tree cfg) (hapart : ConfigsApart w.tree cfg)
    (hlinks : OsLinksValid w.tree cfg) (hinit : usbgInit M.kernel cfg w = (.ok s, w')) :
    OsInv (w', s) := by
  have hends := usbgInit_ends (M := M) (w := w) cfg
  rw [hinit] at hends
  obtain ⟨⟨ht, -⟩, hpath, h⟩ := hends
  have hgadgets := h.gadgets
  rw [hpath] at hgadgets
  refine ⟨fun g hg => ?_, ?_, h.gadgetAddrs.nodup, fun g hg => ?_⟩
  · obtain ⟨name, -, -, hp, -⟩ := exists_of_forall₂ hgadgets hg
    exact hp.trans hpath.symm
  · show (s.gadgets.map Gadget.name).Nodup
    rw [map_eq_of_forall₂ hgadgets fun _ _ _ h => h.1]
    exact (listing_pairwise _ _ _).imp fun h => ne_of_lt h
  · obtain ⟨name, hname, rfl, hp, hparsed⟩ := exists_of_forall₂ hgadgets hg
    exact hparsed.gadgetOs htree hapart hlinks ht hp hname

/-! ## Runs -/

/-- The calls around the link. -/
inductive OsDescCall where
  | createConfig (g : Addr) (id : ℤ) (label : Option CStr) (attrs : Option ConfigAttrs)
      (strs : Option ConfigStrs)
  | setOsDescConfig (g : Addr) (c : Option Addr)
  | rmConfig (g c : Addr) (opts : RmOpts)

namespace OsDescCall

/-- The call, without the value it returns. -/
def run (M : Machine) : OsDescCall → On Fs State Unit
  | createConfig g id label attrs strs => onGadget g do
    let _ ← usbgCreateConfig M.kernel id label attrs strs
    pure ()
  | setOsDescConfig g c => onGadget g (usbgSetOsDescConfig M.kernel c)
  | rmConfig g c opts => onGadget g (usbgRmConfig M.kernel c opts)

/-- The call does not take the link away. -/
def Safe (M : Machine) : OsDescCall → World Fs × State → Prop
  | createConfig .. => fun _ => True
  | setOsDescConfig g c => fun t => c = none → ∀ gad, t.2.gadget? g = some gad →
    OsLinkStays M t.1 gad
  | rmConfig g c opts => fun t => opts → ∀ gad, t.2.gadget? g = some gad →
    gad.osDescBinding = some c → OsLinkStays M t.1 gad

/-- A safe call keeps memory and tree in agreement. -/
lemma run_osInv (c : OsDescCall) (hsafe : c.Safe M t) (h : OsInv t) :
    Ends (fun _ => OsInv) (fun _ => OsInv) True (c.run M t) := by
  cases c with
  | createConfig g id label attrs strs =>
    refine onGadget_os h fun gad _ hg => ?_
    exact Ends.bind (usbgCreateConfig_os hg) fun _ _ ht => ht
  | setOsDescConfig g c =>
    refine onGadget_os h fun gad hgad hg => ?_
    cases c with
    | some a => exact usbgSetOsDescConfig_os hg a
    | none => exact (usbgRmOsDescLink_os hg (hsafe rfl gad hgad)).mono (fun _ _ hf => hf.elim) fun _ _ ht => ht
  | rmConfig g c opts =>
    exact onGadget_os h fun gad hgad hg => usbgRmConfig_os hg fun ho => hsafe ho gad hgad

end OsDescCall

/-- Every gadget remembers the configuration its link points to. -/
def OsDescsAgree (t : World Fs × State) : Prop := ∀ g ∈ t.2.gadgets, OsDescAgrees t.1.tree g

/-- In every run of calls none of which takes the link away, every gadget remembers the
configuration its link points to. -/
theorem osDescAgrees_of_safe (M : Machine) (cfg : CStr) (w₀ w : World Fs) (s : State)
    (t : World Fs × State) (htree : ConfigfsTree w₀.tree cfg) (hapart : ConfigsApart w₀.tree cfg)
    (hlinks : OsLinksValid w₀.tree cfg) (hinit : usbgInit M.kernel cfg w₀ = (.ok s, w))
    (hrun : Calls (OsDescCall.run M) (OsDescCall.Safe M) (w, s) t) : OsDescsAgree t := fun g hg =>
  ((hrun.invariant OsInv (fun c _ hsafe h => c.run_osInv hsafe h)
    (usbgInit_osInv htree hapart hlinks hinit)).gadgets g hg).agrees

/-! ### A link that is unset -/

/-- What `usbg_init` makes of a tree. -/
def started (T : Tree) : World Fs × State :=
  match usbgInit willing.kernel "/c".toList (worldOf T) with
  | (.ok s, w) => (w, s)
  | (_, w) => (w, { path := [], configfsPath := [], gadgets := [], udcs := [],
                    lastFailedImport := none })

lemma usbgInit_started {T : Tree} (h : (started T).2.gadgets.length = 1) :
    ∃ s w, started T = (w, s) ∧ usbgInit willing.kernel "/c".toList (worldOf T) = (.ok s, w) := by
  revert h
  rw [started]
  rcases usbgInit willing.kernel "/c".toList (worldOf T) with ⟨_ | _ | _, w⟩ <;> simp

/-- The state after a call. -/
def OsDescCall.after (c : OsDescCall) (t : World Fs × State) : World Fs × State := (c.run willing t).2

lemma OsDescCall.calls_after {allowed : OsDescCall → World Fs × State → Prop}
    {s t : World Fs × State} (h : Calls (run willing) allowed s t) (c : OsDescCall)
    (hc : allowed c t) (hdef : (c.run willing t).1 ≠ .undef) :
    Calls (run willing) allowed s (c.after t) :=
  h.call c hc hdef

/-- The link of the gadget is set to its configuration. -/
def linked : World Fs × State :=
  OsDescCall.after (.setOsDescConfig 0 (some 2)) (started (smallTree []))

/-- And unset. -/
def unlinked : World Fs × State := OsDescCall.after (.setOsDescConfig 0 none) linked

/-- No links, no wrong links. -/
lemma osLinksValid_of_no_links {T : Tree} {cfg : CStr} (h : ∀ e ∈ T.entries, e.2.isLink = false) :
    OsLinksValid T cfg where
  one g name name' n n' hn hl := by
    rw [h _ (FileTree.get_eq_some.mp hn)] at hl
    cases hl
  target g name text target hn := by
    have := h _ (FileTree.get_eq_some.mp hn)
    cases this

lemma configfsTree_smallTree : ConfigfsTree (smallTree []) "/c".toList where
  named := by decide +kernel
  files := by decide +kernel

lemma configsApart_smallTree : ConfigsApart (smallTree []) "/c".toList := by
  decide +kernel

lemma osLinksValid_smallTree : OsLinksValid (smallTree []) "/c".toList :=
  osLinksValid_of_no_links (by decide +kernel)

lemma length_started_smallTree : (started (smallTree [])).2.gadgets.length = 1 := by
  decide +kernel

lemma calls_linked {allowed : OsDescCall → World Fs × State → Prop}
    (h : allowed (.setOsDescConfig 0 (some 2)) (started (smallTree []))) :
    Calls (OsDescCall.run willing) allowed (started (smallTree [])) linked := by
  rw [linked]
  exact OsDescCall.calls_after (Calls.refl _) _ h (by decide +kernel)

/-- Setting the link and then trying to remove the configuration is safe: the kernel does not
remove what a link points to. -/
theorem osDescAgrees_linked : OsDescsAgree (OsDescCall.after (.rmConfig 0 2 false) linked) := by
  obtain ⟨s, w, hs, hinit⟩ := usbgInit_started length_started_smallTree
  refine osDescAgrees_of_safe willing "/c".toList (worldOf (smallTree [])) w s _ ?_ ?_ ?_ hinit
    (OsDescCall.calls_after (hs ▸ calls_linked fun hnone => by cases hnone) (.rmConfig 0 2 false)
      (fun hopts => absurd hopts Bool.false_ne_true) ?_)
  · rw [tree_worldOf]
    exact configfsTree_smallTree
  · rw [tree_worldOf]
    exact configsApart_smallTree
  · rw [tree_worldOf]
    exact osLinksValid_smallTree
  · decide +kernel

/-- When the link has been set and unset again, there is no link, but the gadget still remembers the
configuration. -/
theorem osDescAgrees_fails :
    ¬ ∀ (M : Machine) (cfg : CStr) (w₀ w : World Fs) (s : State) (t : World Fs × State),
      ConfigfsTree w₀.tree cfg → ConfigsApart w₀.tree cfg → OsLinksValid w₀.tree cfg →
      usbgInit M.kernel cfg w₀ = (.ok s, w) →
      Calls (OsDescCall.run M) (fun _ _ => True) (w, s) t → OsDescsAgree t := by
  intro h
  have hrun : Calls (OsDescCall.run willing) (fun _ _ => True) (started (smallTree [])) unlinked := by
    rw [unlinked]
    exact OsDescCall.calls_after (calls_linked trivial) _ trivial (by decide +kernel)
  obtain ⟨s, w, hs, hinit⟩ := usbgInit_started length_started_smallTree
  rw [hs] at hrun
  have hagree := h willing "/c".toList (worldOf (smallTree [])) w s unlinked
    (by rw [tree_worldOf]; exact configfsTree_smallTree)
    (by rw [tree_worldOf]; exact configsApart_smallTree)
    (by rw [tree_worldOf]; exact osLinksValid_smallTree) hinit hrun
  have hone : unlinked.2.gadgets.length = 1 := by decide +kernel
  have hos : ∀ g ∈ unlinked.2.gadgets, g.osDescBinding ≠ none := by decide +kernel
  have hno : ∀ e ∈ unlinked.1.tree.entries, e.2.isLink = false := by decide +kernel
  obtain ⟨g, hg⟩ := List.exists_mem_of_length_pos (hone ▸ Nat.one_pos)
  obtain ⟨name, text, target, hlink⟩ := (hagree g hg).linked.mp (hos g hg)
  have := hno _ (FileTree.get_eq_some.mp hlink)
  cases this

end Libusbgx
