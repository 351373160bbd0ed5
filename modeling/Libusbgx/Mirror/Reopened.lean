import Libusbgx.Configfs.Stocked
import Libusbgx.Mirror.Kept

/-!
# A second `usbg_init`

Another process that opens the tree after a run of the library sees what the first one has in its lists: the same
gadgets, functions, configurations and bindings.  All it can read is the tree, so this says that nothing of them is
kept in memory only.
-/

namespace Libusbgx

open Prog Machine

variable {M M' : Machine} {cfg x : CStr} {N : Naming} {T T' : Tree} {w w' : World Fs} {g g' : Gadget} {s : State}
  {t : World Fs × State} {r : Path}

/-! ## Texts of links -/

/-- The labels of configurations are not empty, and the text of a link ends in the name of the directory it leads to,
as `readlink` shows it. -/
def Naming.legible : Naming := ⟨(· ≠ []), EndsIn⟩

/-- So do the texts that the library gives to its links. -/
lemma Naming.legible_renders (hcfg : '\x00' ∉ cfg) : Naming.legible.Renders cfg := by
  intro p hp hnames hfits
  obtain ⟨q, y, rfl⟩ := p.eq_nil_or_concat'.resolve_left hp
  rw [← List.cons_append] at hfits ⊢
  refine endsIn_render (List.cons_ne_nil cfg q) (hnames y (by simp)).2.2.2.1 (fun z hz => ?_) hfits
  rcases List.mem_cons.mp hz with rfl | hz
  · exact hcfg
  · exact (hnames z hz).2.2.2.2

namespace TreeNamed

/-- The library finds a slash in the text of a link that it follows. -/
lemma not_slashless {k : CStr} (h : TreeNamed cfg N T) (hk : k ≠ functionsDir)
    (hr : Path.Clean ([cfg, gadgetsDir, x, k] ++ r)) : ¬ Slashless T ([cfg, gadgetsDir, x, k] ++ r) := by
  rintro ⟨text, t, hget, hno⟩
  rw [hr.2] at hget
  obtain ⟨-, pre, hcut⟩ := h.links x k r text t hk hget
  rw [cutLast_eq_none.mpr hno] at hcut
  cases hcut

lemma not_linkWithoutSlash (h : TreeNamed cfg N T) : ¬ LinkWithoutSlash T cfg := by
  have hlisted : ∀ {p : Path} {sel : Dirent → Bool} {y : CStr}, p.resolve ≠ [] →
      y ∈ listing T p.resolve sel → y ≠ [] := by
    intro p sel y hp hy
    obtain ⟨n, hn, -⟩ := mem_listing.mp hy
    exact (h.shaped.names _ _ hn y (by simp [List.tail_append_of_ne_nil hp])).1
  have hresolve : ∀ q : Path, Path.resolve ([cfg, gadgetsDir] ++ q) ≠ [] := by simp [Path.resolve]
  rintro ⟨name, hname, ⟨conf, -, label, id, -, -, link, hlink, hno⟩ | ⟨link, hlink, hno⟩⟩
  · refine h.not_slashless (r := [configName label id, link]) configsDir_ne_functionsDir ?_ hno
    refine (clean_gadgetsPath cfg).append (q := [name, configsDir, configName label id, link]) ?_
    simp only [List.mem_cons, List.not_mem_nil, or_false]
    rintro y (rfl | rfl | rfl | rfl)
    · exact hlisted (hresolve []) hname
    · exact configsDir_ne_nil
    · simp [configName]
    · exact hlisted (hresolve _) hlink
  · refine h.not_slashless (r := [link]) osDescDir_ne_functionsDir ?_ hno
    refine (clean_gadgetsPath cfg).append (q := [name, osDescDir, link]) ?_
    simp only [List.mem_cons, List.not_mem_nil, or_false]
    rintro y (rfl | rfl | rfl)
    · exact hlisted (hresolve []) hname
    · decide
    · exact hlisted (hresolve _) (List.mem_of_mem_head? hlink)

end TreeNamed

/-! ## The tree after a run -/

namespace StateMirrored

/-- Whatever is below the directory of a gadget, is so for a gadget of the list. -/
lemma gadget_of_get (h : StateMirrored cfg N t) (ht : StateTidy cfg t) {n : Node CStr CStr}
    (hn : t.1.tree.get ([cfg, gadgetsDir, x] ++ r) = some n) : ∃ g ∈ t.2.gadgets, g.dir = [cfg, gadgetsDir, x] := by
  obtain ⟨n', hn'⟩ : ∃ n, t.1.tree.get ([cfg, gadgetsDir, x] ++ []) = some n := by
    by_cases hr : r = []
    · exact ⟨n, hr ▸ hn⟩
    · obtain ⟨b, hb⟩ := FileTree.isDir_iff.mp (h.shaped.parents.isDir_of_prefix hn (List.prefix_append ..)
        (fun heq => hr (by simpa using heq)) (List.cons_ne_nil _ _))
      exact ⟨_, hb⟩
  obtain rfl := h.shaped.get_userPlace (r := []) trivial hn'
  have hmade : t.1.tree.made [cfg, gadgetsDir, x] = some (.dir true) := FileTree.made_eq_some.mpr ⟨hn', rfl⟩
  obtain ⟨g, hg, rfl⟩ := ht.gadgets x (by rw [hmade]; simp)
  exact ⟨g, hg, (h.gadgets g hg).dir_eq⟩

/-- What is known of links holds of those that the lists mirror. -/
lemma link_of_get (h : StateMirrored cfg N t) (ht : StateTidy cfg t) {k text : CStr} {t' : Path}
    (hk : k ≠ functionsDir) (hn : t.1.tree.get ([cfg, gadgetsDir, x, k] ++ r) = some (.link text t')) :
    N.link text t' := by
  replace hn : t.1.tree.get ([cfg, gadgetsDir, x] ++ k :: r) = some (.link text t') := hn
  obtain ⟨g, hg, hdir⟩ := h.gadget_of_get ht (r := k :: r) hn
  have hm := h.gadgets g hg
  have hmade : t.1.tree.made (g.dir ++ k :: r) = some (.link text t') := by
    rw [hdir]
    exact FileTree.made_eq_some.mpr ⟨hn, rfl⟩
  rcases (h.shaped.gadgetNode (r := k :: r) hn).1.cases with ⟨y, hr, -⟩ | ⟨c, y, hr, -⟩ | ⟨f, s, -, hr, -⟩
  · rw [hr] at hmade
    exact hm.os.link y text t' hmade
  · -- the configuration that has the link is in the list, and so is its binding
    rw [hr] at hmade hn
    obtain ⟨b, hb⟩ := FileTree.isDir_iff.mp (h.shaped.parents.isDir_of_prefix hn
      (show [cfg, gadgetsDir, x, configsDir, c] <+: _ from ⟨[y], rfl⟩) (by simp) (List.cons_ne_nil _ _))
    obtain hdirnode := h.shaped.get_userPlace (r := [configsDir, c]) (.inr (.inl rfl)) hb
    rw [hdirnode] at hb
    obtain ⟨c', hc', rfl⟩ := (ht.each g hg).configs c (by
      rw [hdir]
      exact ne_of_eq_of_ne (FileTree.made_eq_some.mpr ⟨hb, rfl⟩) (Option.some_ne_none _))
    obtain ⟨b', hb', rfl⟩ := (hm.configs c' hc').complete y (by rw [hmade]; simp)
    obtain ⟨f, -, -, text', hlink, hmade'⟩ := ((hm.configs c' hc').bindings b' hb').target
    obtain ⟨rfl, rfl⟩ := Node.link.inj (Option.some.inj (hmade.symm.trans hmade'))
    exact hlink
  · exact absurd (List.cons.inj hr).1 hk

/-- A tree that is mirrored, with nothing left behind, is one that can be opened again. -/
lemma treeNamed (h : StateMirrored cfg .legible t) (ht : StateTidy cfg t) : TreeNamed cfg .legible t.1.tree where
  shaped := h.shaped
  dir := h.dir
  configs x c hn := by
    obtain ⟨n, hn'⟩ := Option.ne_none_iff_exists'.mp hn
    obtain ⟨g, hg, hdir⟩ := h.gadget_of_get ht (r := [configsDir, c]) (FileTree.made_eq_some.mp hn').1
    obtain ⟨c', hc', rfl⟩ := (ht.each g hg).configs c (by rw [hdir]; exact hn)
    have hc := (h.gadgets g hg).configs c' hc'
    exact ⟨c'.label, c'.id, hc.label, hc.label, hc.id.1, hc.id.2, hc.named⟩
  links x k r text t' hk hn := ⟨h.link_of_get ht hk hn, h.link_of_get ht hk hn⟩
  alive x y text t' hn := by
    obtain ⟨g, hg, hdir⟩ := h.gadget_of_get ht (r := [osDescDir, y]) hn
    have hmade : t.1.tree.made (g.dir ++ [osDescDir, y]) = some (.link text t') := by
      rw [hdir]
      exact FileTree.made_eq_some.mpr ⟨hn, rfl⟩
    obtain ⟨c, hc, -, rfl⟩ := (h.gadgets g hg).os.target y text t' hmade
    exact FileTree.isDir_iff.mpr ⟨true, (FileTree.made_eq_some.mp ((h.gadgets g hg).configs c hc).made).1⟩
  one x y z hy hz := by
    obtain ⟨n, hn⟩ := Option.ne_none_iff_exists'.mp hy
    obtain ⟨g, hg, hdir⟩ := h.gadget_of_get ht (r := [osDescDir, y]) (FileTree.made_eq_some.mp hn).1
    refine (h.gadgets g hg).os.one y z ?_ ?_
    · rw [hdir]
      exact hy
    · rw [hdir]
      exact hz

end StateMirrored

/-! ## What is seen of a gadget -/

/-- A binding, with the name of the function that its target points to. -/
def Gadget.bindingView (g : Gadget) (b : Binding) : CStr × Option CStr := (b.name, (g.function? b.target).map Func.name)

/-- What the library shows of a gadget: no addresses, no handle of an import, no controller. -/
structure GadgetView where
  name : CStr
  functions : List (CStr × FunctionType × CStr)
  configs : List (CStr × CStr × ℤ × List (CStr × Option CStr))

def Gadget.view (g : Gadget) : GadgetView where
  name := g.name
  functions := g.functions.map fun f => (f.name, f.type, f.inst)
  configs := g.configs.map fun c => (c.name, c.label, c.id, c.bindings.map g.bindingView)

/-- The name of the configuration with the OS descriptors. -/
def Gadget.osDescView (g : Gadget) : Option CStr := (g.osDescBinding.bind g.config?).map Config.name

/-- The two gadgets look the same; the configuration with the OS descriptors does if its link has not been taken away
since the gadget has remembered it. -/
structure ShownAs (T : Tree) (g g' : Gadget) : Prop where
  view : g'.view = g.view
  os : Live T g → g'.osDescView = g.osDescView

/-- Lists that go along with each other show the same. -/
lemma map_eq_of_shown {α β : Type} {view view' : α → β} {l l' : List α}
    (h : List.Forall₂ (fun a b => view' b = view a) l l') : l'.map view' = l.map view :=
  map_eq_of_forall₂ (List.forall₂_map_left_iff.mpr h) fun _ _ _ hab => hab

section Same

variable (h : GadgetMirrored cfg .legible w g) (h' : GadgetMirrored cfg .legible w' g')
  (htree : w'.tree = w.tree) (hname : g'.name = g.name)

include h h' htree hname

lemma GadgetMirrored.made_eq_of_same (r : Path) : w'.tree.made (g'.dir ++ r) = w.tree.made (g.dir ++ r) := by
  rw [htree, h.dir_eq, h'.dir_eq, hname]

/-- The bindings of one configuration. -/
lemma GadgetMirrored.bindingView_eq {c c' : Config} (hc : c ∈ g.configs) (hc' : c' ∈ g'.configs)
    (hcname : c'.name = c.name) {b b' : Binding} (hb : b ∈ c.bindings) (hb' : b' ∈ c'.bindings)
    (hbname : b'.name = b.name) : g'.bindingView b' = g.bindingView b := by
  obtain ⟨f, hf, haddr, text, -, hmade⟩ := ((h.configs c hc).bindings b hb).target
  obtain ⟨f', hf', haddr', text', -, hmade'⟩ := ((h'.configs c' hc').bindings b' hb').target
  rw [hcname, hbname, h.made_eq_of_same h' htree hname, hmade, h.dir_eq, h'.dir_eq, hname] at hmade'
  have hfname : f.name = f'.name := by simpa using (Node.link.inj (Option.some.inj hmade')).2
  have hfind : g.function? b.target = some f := (find?_key_eq_some h.functionAddrs).mpr ⟨hf, haddr⟩
  have hfind' : g'.function? b'.target = some f' := (find?_key_eq_some h'.functionAddrs).mpr ⟨hf', haddr'⟩
  rw [Gadget.bindingView, Gadget.bindingView, hfind, hfind', hbname, Option.map_some, Option.map_some, hfname]

/-- One configuration. -/
lemma GadgetMirrored.configView_eq {c c' : Config} (hc : c ∈ g.configs) (hc' : c' ∈ g'.configs)
    (hcname : c'.name = c.name) :
    (c'.name, c'.label, c'.id, c'.bindings.map g'.bindingView) =
      (c.name, c.label, c.id, c.bindings.map g.bindingView) := by
  have hm := h.configs c hc
  have hm' := h'.configs c' hc'
  have hsplit := usbgSplitConfigLabelId_configName hm.label (le_of_lt hm.id.1) hm.id.2
  rw [← hm.named, ← hcname, hm'.named, usbgSplitConfigLabelId_configName hm'.label (le_of_lt hm'.id.1) hm'.id.2]
    at hsplit
  obtain ⟨hlabel, hid⟩ := Prod.mk.inj (Except.ok.inj hsplit)
  have hsame := h.made_eq_of_same h' htree hname
  have hbindings : c'.bindings.map g'.bindingView = c.bindings.map g.bindingView := by
    refine map_eq_of_shown (forall₂_of_keys hm.names hm'.names (fun b hb => ?_) (fun b' hb' => ?_)
      fun b hb b' hb' hb => ?_)
    · obtain ⟨f, -, -, text, -, hmade⟩ := (hm.bindings b hb).target
      exact hm'.complete b.name (by rw [hcname, hsame, hmade]; simp)
    · obtain ⟨f, -, -, text, -, hmade⟩ := (hm'.bindings b' hb').target
      exact hm.complete b'.name (by rw [← hcname, ← hsame, hmade]; simp)
    · exact h.bindingView_eq h' htree hname hc hc' hcname ‹_› hb' hb
  rw [hcname, hlabel, hid, hbindings]

/-- Two gadgets of one directory that say the same as the tree look the same. -/
lemma GadgetMirrored.view_eq (ht : Tidy w.tree g) (ht' : Tidy w'.tree g') : g'.view = g.view := by
  have hsame := h.made_eq_of_same h' htree hname
  have hfunctions : g'.functions.map (fun f => (f.name, f.type, f.inst)) = g.functions.map fun f =>
    (f.name, f.type, f.inst) := by
    refine map_eq_of_shown (forall₂_of_keys h.functionNames h'.functionNames (fun f hf => ?_) (fun f' hf' => ?_)
      fun f hf f' hf' hfname => ?_)
    · exact ht'.functions f.name (by rw [hsame, (h.functions f hf).made]; simp)
    · exact ht.functions f'.name (by rw [← hsame, (h'.functions f' hf').made]; simp)
    · have hsplit := (h.functions f hf).named.split
      rw [← hfname, (h'.functions f' hf').named.split] at hsplit
      obtain ⟨htype, hinst⟩ := Prod.mk.inj (Except.ok.inj hsplit)
      rw [hfname, htype, hinst]
  have hconfigs : g'.configs.map (fun c => (c.name, c.label, c.id, c.bindings.map g'.bindingView)) =
      g.configs.map fun c => (c.name, c.label, c.id, c.bindings.map g.bindingView) := by
    refine map_eq_of_shown (forall₂_of_keys h.configNames h'.configNames (fun c hc => ?_) (fun c' hc' => ?_)
      fun c hc c' hc' hcname => h.configView_eq h' htree hname hc hc' hcname)
    · exact ht'.configs c.name (by rw [hsame, (h.configs c hc).made]; simp)
    · exact ht.configs c'.name (by rw [← hsame, (h'.configs c' hc').made]; simp)
  rw [Gadget.view, Gadget.view, hname, hfunctions, hconfigs]

omit h h' htree hname in
/-- Without a link there is no configuration with the OS descriptors. -/
lemma osDescView_eq_none (hl : Live w.tree g)
    (hno : ∀ y, w.tree.made (g.dir ++ [osDescDir, y]) = none) : g.osDescView = none := by
  rw [Gadget.osDescView, Option.map_eq_none_iff, Option.bind_eq_none_iff]
  intro a ha
  rw [Gadget.config?, List.find?_eq_none]
  intro c hc heq
  obtain ⟨y, hy⟩ := hl c hc (by simpa [ha] using (of_decide_eq_true heq).symm)
  exact hy (hno y)

omit h' htree hname in
/-- With a link it is the one that the link leads to. -/
lemma GadgetMirrored.osDescView_eq_some {y text : CStr} {c : CStr}
    (hl : w.tree.made (g.dir ++ [osDescDir, y]) = some (.link text (g.dir ++ [configsDir, c]))) :
    g.osDescView = some c := by
  obtain ⟨c', hc', ho, ht⟩ := h.os.target y text _ hl
  have hfind : g.config? c'.addr = some c' := (find?_key_eq_some h.configAddrs).mpr ⟨hc', rfl⟩
  have hcname : c = c'.name := by simpa using ht
  rw [Gadget.osDescView, ho, Option.bind_some, hfind, Option.map_some, hcname]

lemma GadgetMirrored.osDescView_eq (hl : Live w.tree g) (hl' : Live w'.tree g') : g'.osDescView = g.osDescView := by
  have hsame := h.made_eq_of_same h' htree hname
  by_cases hno : ∀ y, w.tree.made (g.dir ++ [osDescDir, y]) = none
  · rw [osDescView_eq_none hl hno, osDescView_eq_none hl' fun y => by rw [hsame]; exact hno y]
  · obtain ⟨y, hy⟩ := not_forall.mp hno
    obtain ⟨n, hn⟩ := Option.ne_none_iff_exists'.mp hy
    -- what the user makes there is a link to a configuration
    obtain ⟨text, t, rfl⟩ : ∃ text t, n = .link text t := by
      obtain ⟨hget, hmade⟩ := FileTree.made_eq_some.mp hn
      rw [h.dir_eq] at hget
      have hok := h.shaped.gadgetNode hget
      rcases n with made | content | ⟨text, t⟩
      · rw [Node.made_dir] at hmade
        rw [hmade] at hok
        rcases hok with (hp | hp | hp) | hin
        · exact absurd hp (by decide)
        · exact absurd hp (by decide)
        · exact absurd hp (by decide)
        · exact hin.elim
      · cases hmade
      · exact ⟨text, t, rfl⟩
    obtain ⟨c, -, -, rfl⟩ := h.os.target y text t hn
    have hn' : w'.tree.made (g'.dir ++ [osDescDir, y]) = some (.link text (g'.dir ++ [configsDir, c.name])) := by
      rw [hsame, hn, h.dir_eq, h'.dir_eq, hname]
    rw [h.osDescView_eq_some hn, h'.osDescView_eq_some hn']

end Same

/-! ## What the second process reads -/

/-- A gadget that was read remembers a configuration only if there is a link. -/
lemma ParsedGadget.live {lo hi : Addr} (h : ParsedGadget T lo hi g) (hpath : g.path = [cfg, gadgetsDir])
    (hname : g.name ≠ []) : Live T g := by
  intro c _ ho
  have hos := h.osDesc
  rw [ParsedOsDesc, resolve_sub hpath hname (by simp)] at hos
  rcases hlist : listing T [cfg, gadgetsDir, g.name, osDescDir] bindingsSelect with - | ⟨y, names⟩
  · rw [hlist] at hos
    rw [ho] at hos
    cases hos
  · obtain ⟨n, hn, hlink⟩ := mem_listing.mp (show y ∈ listing T _ bindingsSelect by rw [hlist]; simp)
    obtain ⟨text, t, rfl⟩ := Node.isLink_iff.mp hlink
    have hmade : T.made (g.dir ++ [osDescDir, y]) = some (.link text t) := by
      rw [dir_sub hpath]
      exact FileTree.made_eq_some.mpr ⟨hn, rfl⟩
    exact ⟨y, by rw [hmade]; simp⟩

/-- The paths of the directories that `usbg_init` lists in a gadget fit into its buffers: that with the functions is the
longest. -/
def FunctionPathsFit (s : State) : Prop := ∀ g ∈ s.gadgets, (g.dir ++ [functionsDir]).Fits

lemma nameOf_append (d : Path) (y z : CStr) : nameOf (d ++ [y, z]) = z := by
  simp [nameOf, List.getLastD_eq_getLast?]

section Readable

variable (h : StateMirrored cfg .legible t) (ht : StateTidy cfg t) (hS : Stocked cfg t.1.tree)
  (hg : g ∈ t.2.gadgets)

include h hg

/-- The directories in that of a gadget. -/
lemma StateMirrored.isDir_sub (hS : Stocked cfg t.1.tree) {z : CStr} (hz : (z, true) ∈ groupEntries []) :
    t.1.tree.IsDir (g.dir ++ [z]) ∧ (g.dir ++ [z]).resolve = g.dir ++ [z] := by
  have hm := h.gadgets g hg
  have hmade := (FileTree.made_eq_some.mp hm.made).1
  rw [hm.dir_eq] at hmade ⊢
  have hn := hS.get_dir h.shaped (r := []) (by rw [List.append_nil, hmade]; simp) hz
  exact ⟨FileTree.isDir_iff.mpr ⟨_, hn⟩, (h.shaped.clean hn (List.cons_ne_nil _ _)).2⟩

include ht hS

lemma StateMirrored.functionsReadable (hfit : (g.dir ++ [functionsDir]).Fits) :
    FunctionsReadable t.1.tree (g.dir ++ [functionsDir]) := by
  have hm := h.gadgets g hg
  obtain ⟨hdir, hresolve⟩ := h.isDir_sub hg hS (z := functionsDir) (by simp [groupEntries])
  refine ⟨hfit, by rwa [hresolve], fun name hname => ?_⟩
  rw [hresolve, hm.dir_eq] at hname
  have hmade := (h.treeNamed ht).made_of_mem_listing (r := [functionsDir]) (.inr (.inr rfl)) hname
  obtain ⟨f, hf, rfl⟩ := (ht.each g hg).functions name (by
    rw [hm.dir_eq]
    exact ne_of_eq_of_ne hmade (Option.some_ne_none _))
  exact ⟨_, (hm.functions f hf).named.split⟩

/-- The links of a configuration lead to functions that are found. -/
lemma StateMirrored.bindingsReadable {c : Config} (hc : c ∈ g.configs) {fs : List Func}
    (hfs : List.Forall₂ (ParsedFunction (g.dir ++ [functionsDir]))
      (listing t.1.tree (g.dir ++ [functionsDir]).resolve fileSelect) fs) :
    BindingsReadable t.1.tree fs (g.dir ++ [configsDir] ++ [c.name]) := by
  have hm := h.gadgets g hg
  have hmc := hm.configs c hc
  have hget := (FileTree.made_eq_some.mp hmc.made).1
  rw [List.append_assoc]
  have hclean := hm.clean_of_made hmc.made
  refine ⟨hmc.fits, ?_, fun y hy => ?_⟩
  · exact FileTree.isDir_iff.mpr ⟨true, by rw [List.cons_append, List.nil_append, hclean.2, hget]⟩
  rw [List.cons_append, List.nil_append] at hy ⊢
  rw [hclean.2] at hy
  obtain ⟨n, hn, hlink⟩ := mem_listing.mp hy
  obtain ⟨text, t', rfl⟩ := Node.isLink_iff.mp hlink
  have hmade : t.1.tree.made (g.dir ++ [configsDir, c.name, y]) = some (.link text t') := by
    rw [List.append_assoc] at hn
    exact FileTree.made_eq_some.mpr ⟨hn, rfl⟩
  obtain ⟨b, hb, rfl⟩ := hmc.complete y (by rw [hmade]; simp)
  have hbits := (hmc.bindings b hb).fits
  obtain ⟨f, hf, -, text', ⟨pre, hcut⟩, hmade'⟩ := (hmc.bindings b hb).target
  rw [hmade] at hmade'
  obtain ⟨rfl, rfl⟩ := Node.link.inj (Option.some.inj hmade')
  have hmem : f.name ∈ listing t.1.tree (g.dir ++ [functionsDir]).resolve fileSelect := by
    rw [(h.isDir_sub hg hS (z := functionsDir) (by simp [groupEntries])).2]
    refine (h.treeNamed ht).mem_listing_of_made (by simp) ?_
    rw [List.append_assoc, List.cons_append, List.nil_append, (hm.functions f hf).made]
    simp
  obtain ⟨f', hf', hp⟩ := exists_of_forall₂' hfs hmem
  refine ⟨by simpa using hbits, f', hf', text, g.dir ++ [functionsDir, f.name], pre, ?_, ?_⟩
  · rw [(h.shaped.clean hn (by simp)).2, hn]
  · rw [hcut, hp.name_eq, nameOf_append]

lemma StateMirrored.configsReadable (hfit : (g.dir ++ [functionsDir]).Fits) {fs : List Func}
    (hfs : List.Forall₂ (ParsedFunction (g.dir ++ [functionsDir]))
      (listing t.1.tree (g.dir ++ [functionsDir]).resolve fileSelect) fs) :
    ConfigsReadable t.1.tree fs (g.dir ++ [configsDir]) := by
  have hm := h.gadgets g hg
  obtain ⟨hdir, hresolve⟩ := h.isDir_sub hg hS (z := configsDir) (by simp [groupEntries])
  refine ⟨hfit.of_length_le (by decide), by rwa [hresolve], fun name hname => ?_⟩
  rw [hresolve, hm.dir_eq] at hname
  have hmade := (h.treeNamed ht).made_of_mem_listing (r := [configsDir]) (.inr (.inl rfl)) hname
  obtain ⟨c, hc, rfl⟩ := (ht.each g hg).configs name (by
    rw [hm.dir_eq]
    exact ne_of_eq_of_ne hmade (Option.some_ne_none _))
  have hmc := hm.configs c hc
  refine ⟨c.label, c.id, ?_, fun _ => ?_⟩
  · rw [hmc.named, usbgSplitConfigLabelId_configName hmc.label (le_of_lt hmc.id.1) hmc.id.2]
  · rw [← hmc.named]
    exact h.bindingsReadable ht hS hg hc hfs

lemma StateMirrored.osDescReadable (hfit : (g.dir ++ [functionsDir]).Fits) {fs : List Func} {cs : List Config}
    (hcs : ParsedConfigs t.1.tree (g.dir ++ [configsDir]) fs
      (listing t.1.tree (g.dir ++ [configsDir]).resolve fileSelect) cs) :
    OsDescReadable t.1.tree cs (g.dir ++ [osDescDir]) := by
  have hm := h.gadgets g hg
  obtain ⟨hdir, hresolve⟩ := h.isDir_sub hg hS (z := osDescDir) (by simp [groupEntries])
  refine ⟨hfit.of_length_le (by decide), by rwa [hresolve], fun name hname => ?_⟩
  rw [hresolve] at hname
  obtain ⟨n, hn, hlink⟩ := mem_listing.mp (List.mem_of_mem_head? hname)
  obtain ⟨text, t', rfl⟩ := Node.isLink_iff.mp hlink
  have hmade : t.1.tree.made (g.dir ++ [osDescDir, name]) = some (.link text t') := by
    rw [List.append_assoc] at hn
    exact FileTree.made_eq_some.mpr ⟨hn, rfl⟩
  obtain ⟨c, hc, -, rfl⟩ := hm.os.target name text t' hmade
  have hmc := hm.configs c hc
  have hsplit : usbgSplitConfigLabelId c.name = .ok (c.label, c.id) := by
    rw [hmc.named, usbgSplitConfigLabelId_configName hmc.label (le_of_lt hmc.id.1) hmc.id.2]
  obtain ⟨pre, hcut⟩ := hm.os.link name text _ hmade
  have hlinkFits := hm.os.fits name (by rw [hmade]; simp)
  refine ⟨by simpa using hlinkFits, c.name, c.label, c.id, ⟨text, g.dir ++ [configsDir, c.name], pre, ?_, ?_⟩,
    hsplit, fun hid => ?_⟩
  · rw [(h.shaped.clean hn (by simp)).2, hn]
  · rw [hcut, nameOf_append]
  · have hmem : c.name ∈ listing t.1.tree (g.dir ++ [configsDir]).resolve fileSelect := by
      rw [(h.isDir_sub hg hS (z := configsDir) (by simp [groupEntries])).2]
      refine (h.treeNamed ht).mem_listing_of_made (by simp) ?_
      rw [List.append_assoc, List.cons_append, List.nil_append, hmc.made]
      simp
    obtain ⟨c', hc', hp⟩ := exists_of_forall₂' hcs
      (List.mem_filter.mpr ⟨hmem, decide_eq_true ⟨c.label, c.id, hsplit, hid⟩⟩)
    have heq := hp.split
    rw [hsplit] at heq
    obtain ⟨hlabel, hid'⟩ := Prod.mk.inj (Except.ok.inj heq)
    exact ⟨c', hc', hlabel.symm, hid'.symm⟩

lemma StateMirrored.gadgetReadable (hfit : (g.dir ++ [functionsDir]).Fits) : GadgetReadable t.1.tree g.dir where
  functions := h.functionsReadable ht hS hg hfit
  configs _ hfs := h.configsReadable ht hS hg hfit hfs
  osDesc _ _ hcs := h.osDescReadable ht hS hg hfit hcs
  udc := by
    have hm := h.gadgets g hg
    have hmade := (FileTree.made_eq_some.mp hm.made).1
    rw [hm.dir_eq] at hmade ⊢
    obtain ⟨n, hn, hfile⟩ := hS g.name [] (by rw [List.append_nil, hmade]; simp) (udcFile, false)
      (by simp [groupEntries])
    have hget : t.1.tree.get ([cfg, gadgetsDir, g.name] ++ [udcFile]) = some n := hn
    rcases n with made | content | ⟨text, t'⟩
    · cases hfile
    · refine ⟨hm.dir_eq ▸ hfit.of_length_le (by decide), content, ?_⟩
      rw [(h.shaped.clean hget (List.cons_ne_nil _ _)).2, hget]
    · cases hfile

omit hg in
/-- `usbg_init` can read the tree. -/
lemma StateMirrored.readable (hfit : FunctionPathsFit t.2) : Readable t.1.tree cfg where
  dir := h.dir
  gadgets x hx := by
    obtain ⟨n, hn, -⟩ := mem_listing.mp hx
    obtain ⟨g, hg, hdir⟩ := h.gadget_of_get ht (r := []) hn
    have hreadable := h.gadgetReadable ht hS hg (hfit g hg)
    rwa [hdir] at hreadable

end Readable

/-! ## Opening again -/

/-- What a second process needs of the tree that the first one has found, and of the text that names its root. -/
structure Openable (cfg : CStr) (T : Tree) : Prop where
  named : TreeNamed cfg .legible T
  stocked : Stocked cfg T
  cfg : '\x00' ∉ cfg

lemma StateMirrored.shown {s' : State} (h : StateMirrored cfg .legible t) (ht : StateTidy cfg t)
    (h' : StateMirrored cfg .legible (w', s')) (ht' : StateTidy cfg (w', s'))
    (hlive' : ∀ g ∈ s'.gadgets, Live w'.tree g)
    (htree : w'.tree = t.1.tree) : List.Forall₂ (ShownAs t.1.tree) t.2.gadgets s'.gadgets := by
  refine forall₂_of_keys h.names h'.names (fun g hg => ?_) (fun g' hg' => ?_) fun g hg g' hg' hname => ?_
  · refine ht'.gadgets g.name ?_
    rw [htree, ← (h.gadgets g hg).dir_eq, (h.gadgets g hg).made]
    simp
  · refine ht.gadgets g'.name ?_
    rw [← htree, ← (h'.gadgets g' hg').dir_eq, (h'.gadgets g' hg').made]
    simp
  · exact
      { view := (h.gadgets g hg).view_eq (h'.gadgets g' hg') htree hname (ht.each g hg) (ht'.each g' hg')
        os := fun hl => (h.gadgets g hg).osDescView_eq (h'.gadgets g' hg') htree hname hl (hlive' g' hg') }

/-- A second `usbg_init` sees what the first process has in its lists.  It fails only if it may not read, or if the path
of a directory with functions is too long for the library. -/
structure SeesAgain (M' : Machine) (cfg : CStr) (w' : World Fs) (t : World Fs × State) : Prop where
  ends : Ends (fun s' _ => List.Forall₂ (ShownAs t.1.tree) t.2.gadgets s'.gadgets)
    (fun _ _ => M'.Reads → ¬ FunctionPathsFit t.2) False (usbgInit M'.kernel cfg w')

/-- The gadgets that `usbg_init` finds again have paths that it could read. -/
lemma StateMirrored.functionPathsFit {s' : State} (h : StateMirrored cfg .legible t)
    (h' : StateMirrored cfg .legible (w', s')) (hfits : ∀ g' ∈ s'.gadgets, (g'.path ++ [g'.name, functionsDir]).Fits)
    (hnames : s'.gadgets.map Gadget.name = t.2.gadgets.map Gadget.name) : FunctionPathsFit t.2 := by
  intro g hg
  obtain ⟨g', hg', hname⟩ := List.mem_map.mp (hnames ▸ List.mem_map_of_mem (f := Gadget.name) hg)
  have hdir : g'.dir = g.dir := by rw [(h.gadgets g hg).dir_eq, (h'.gadgets g' hg').dir_eq, hname]
  have hpath : g'.path ++ [g'.name, functionsDir] = g.dir ++ [functionsDir] := by
    rw [← hdir, Gadget.dir, List.append_assoc]
    rfl
  exact hpath ▸ hfits g' hg'

/-- What `usbg_init` makes of a tree that the lists mirror. -/
lemma StateMirrored.usbgInit_again (M' : Machine) (h : StateMirrored cfg .legible t) (ht : StateTidy cfg t)
    (hS : Stocked cfg t.1.tree) (hsame : w'.tree = t.1.tree) :
    Ends (fun s' _ => List.Forall₂ (ShownAs t.1.tree) t.2.gadgets s'.gadgets ∧ FunctionPathsFit t.2)
      (fun _ _ => M'.Reads → ¬ FunctionPathsFit t.2) False (usbgInit M'.kernel cfg w') := by
  have hnamed := h.treeNamed ht
  rcases hinit' : usbgInit M'.kernel cfg w' with ⟨s' | e | _, w''⟩
  · have hends := usbgInit_ends (M := M') (w := w') cfg
    rw [hinit'] at hends
    obtain ⟨⟨hw', -⟩, hpath, hparsed⟩ := hends
    have hnamed' : TreeNamed cfg .legible w'.tree := hsame ▸ hnamed
    obtain ⟨hm', ht'⟩ := usbgInit_mirrored hnamed' hinit'
    have hshown := h.shown ht hm' ht' (fun g hg => ?_) (hw'.trans hsame)
    · refine ⟨hshown, h.functionPathsFit hm' (fun g' hg' => ?_) (map_eq_of_shown
        (hshown.imp fun _ _ hs => congrArg GadgetView.name hs.view))⟩
      obtain ⟨x, -, -, -, hpg⟩ := exists_of_forall₂ hparsed.gadgets hg'
      exact hpg.fits
    · have hgm := hm'.gadgets g hg
      obtain ⟨x, -, rfl, hp, hpg⟩ := exists_of_forall₂ hparsed.gadgets hg
      rw [hw']
      exact hpg.live hgm.path (hgm.shaped.names _ _ (hgm.dir_eq ▸ (FileTree.made_eq_some.mp hgm.made).1) g.name
        (by simp)).1
  · have hends := usbgInit_ends (M := M') (w := w') cfg
    rw [hinit'] at hends
    intro hreads hfit
    refine hends hreads ?_
    rw [hsame]
    exact h.readable ht hS hfit
  · have hends := usbgInit_ends (M := M') (w := w') cfg
    rw [hinit'] at hends
    rw [hsame] at hends
    exact hnamed.not_linkWithoutSlash hends

/-- After a run that leaves nothing behind the tree can be opened again. -/
lemma reopenable_of_calls {w₀ : World Fs} (hM : Configfs M cfg) (hstocks : M.Stocks cfg) (htree : Openable cfg w₀.tree)
    (hinit : usbgInit M.kernel cfg w₀ = (.ok s, w))
    (hrun : Calls (LibCall.run M) (fun c t => c.Labelled .legible ∧ c.Neat M t) (w, s) t) :
    StateMirrored cfg .legible t ∧ StateTidy cfg t ∧ Stocked cfg t.1.tree := by
  have hw : w.tree = w₀.tree := by
    have hends := usbgInit_ends (M := M) (w := w₀) cfg
    rw [hinit] at hends
    exact hends.1.1
  have hinv := stateInv_of_calls True hM (Naming.legible_renders htree.cfg) htree.named hinit
    (Calls.mono hrun fun c _ hc => ⟨hc.1, fun _ => hc.2⟩)
  exact ⟨hinv.1, hinv.2 trivial,
    (holds_of_calls (stable_stocked hM hstocks []) hrun ⟨hw ▸ htree.named.shaped, hw ▸ htree.stocked⟩).2⟩

/-- It does so after every run of the library that leaves nothing behind, with any kernel that shows the same tree. -/
theorem usbgInit_seesAgain (M M' : Machine) (cfg : CStr) (w₀ w w' : World Fs) (s : State) (t : World Fs × State)
    (hM : Configfs M cfg) (hstocks : M.Stocks cfg) (htree : Openable cfg w₀.tree)
    (hinit : usbgInit M.kernel cfg w₀ = (.ok s, w))
    (hrun : Calls (LibCall.run M) (fun c t => c.Named ∧ c.Labelled .legible ∧ c.Neat M t) (w, s) t)
    (hsame : w'.tree = t.1.tree) : SeesAgain M' cfg w' t := by
  obtain ⟨h, ht, hS⟩ := reopenable_of_calls hM hstocks htree hinit (Calls.mono hrun fun _ _ hc => hc.2)
  exact ⟨(h.usbgInit_again M' ht hS hsame).mono (fun _ _ hs => hs.1) fun _ _ he => he⟩

/-! ### A run -/

lemma openable_emptyGadgetTree : Openable "/c".toList emptyGadgetTree where
  named := treeNamed_emptyGadgetTree _
  cfg := by decide
  stocked x r hx e he := by
    -- there is one gadget, and no configuration
    have hone : ∀ e ∈ emptyGadgetTree.entries, UserPlace (e.1.drop 3) → 3 ≤ e.1.length → e.1 = plainGadget.dir := by
      decide +kernel
    obtain ⟨n, hn⟩ := Option.ne_none_iff_exists'.mp hx
    have hpath := hone _ (FileTree.get_eq_some.mp hn) (userPlace_of_groupEntries he) (by simp)
    obtain ⟨rfl, rfl⟩ : x = plainGadget.name ∧ r = [] := by
      simpa [Gadget.dir, plainGadget, Gadget.allocated] using hpath
    have hdir : ∀ z ∈ [functionsDir, configsDir, stringsDir, osDescDir],
        emptyGadgetTree.get ["/c".toList, gadgetsDir, plainGadget.name, z] = some (.dir false) := by decide +kernel
    have hudc : emptyGadgetTree.get ["/c".toList, gadgetsDir, plainGadget.name, udcFile] = some (.file ['\n']) := by
      decide +kernel
    simp only [groupEntries, List.mem_cons, List.not_mem_nil, or_false] at he
    rcases he with rfl | rfl | rfl | rfl | rfl
    · exact ⟨_, hdir functionsDir (by simp), rfl⟩
    · exact ⟨_, hdir configsDir (by simp), rfl⟩
    · exact ⟨_, hdir stringsDir (by simp), rfl⟩
    · exact ⟨_, hdir osDescDir (by simp), rfl⟩
    · exact ⟨_, hudc, rfl⟩

lemma stocks_configfsMachine (cfg : CStr) : (configfsMachine cfg).Stocks cfg := by
  intro x r e he
  rcases groupEntries_cases he with rfl | ⟨c, rfl, rfl⟩
  · show ∃ c, ([e.1], c) ∈ gadgetGroups ∧ IsGroup e.2 (groupNode c)
    simp only [groupEntries, List.mem_cons, List.not_mem_nil, or_false] at he
    rcases he with rfl | rfl | rfl | rfl | rfl
    · exact ⟨none, by decide, rfl⟩
    · exact ⟨none, by decide, rfl⟩
    · exact ⟨none, by decide, rfl⟩
    · exact ⟨none, by decide, rfl⟩
    · exact ⟨some ['\n'], by decide, rfl⟩
  · show ∃ c', ([stringsDir], c') ∈ (if configsDir = configsDir then configGroups else []) ∧ IsGroup true (groupNode c')
    exact ⟨none, by rw [if_pos rfl]; decide, rfl⟩

lemma stocks_plainMachine : plainMachine.Stocks "/c".toList := stocks_configfsMachine "/c".toList

/-- The run before. -/
def boundRun : World Fs × State := afterCalls plainMachine plainStart boundCalls

lemma labelled_boundCalls : ∀ c ∈ boundCalls, c.Labelled .legible := by
  simp only [boundCalls, List.mem_cons, List.not_mem_nil, or_false]
  rintro c (rfl | rfl | rfl | rfl | rfl | rfl | rfl | rfl | rfl)
  · trivial
  · exact List.cons_ne_nil _ _
  · trivial
  · trivial
  · trivial
  · trivial
  · intro root hroot
    obtain rfl := ConfigFile.parsed.inj hroot
    intro configs hc node hn
    obtain rfl := Option.some.inj hc
    exact (List.not_mem_nil hn).elim
  · trivial
  · trivial

lemma calls_boundRun : Calls (LibCall.run plainMachine)
    (fun c t => c.Named ∧ c.Labelled .legible ∧ c.Neat plainMachine t) plainStart boundRun :=
  Calls.mono calls_boundCalls fun c _ hc => ⟨hc.2.1, labelled_boundCalls c hc.1, hc.2.2⟩

/-- A second process sees the gadgets with their functions, the configuration and its binding. -/
theorem usbgInit_seesAgain_boundRun : SeesAgain willing "/c".toList boundRun.1 boundRun := by
  obtain ⟨s, w, hs, hinit⟩ := usbgInit_plainStart
  exact usbgInit_seesAgain plainMachine willing "/c".toList (worldOf emptyGadgetTree) w boundRun.1 s boundRun
    configfs_plainMachine stocks_plainMachine openable_emptyGadgetTree hinit (hs ▸ calls_boundRun) rfl

/-! ## Runs that build and remove -/

/-- The calls that make gadgets, functions, configurations and bindings. -/
def LibCall.creates : LibCall → Bool
  | createGadget _ _ _ | createGadgetVidPid _ _ _ | gadget _ (.createFunction _ _ _)
  | gadget _ (.createConfig _ _ _ _) | gadget _ (.addConfigFunction _ _ _) => true
  | _ => false

/-- The calls that remove them, recursively or not. -/
def LibCall.removes : LibCall → Bool
  | rmGadget _ _ | gadget _ (.rmConfig _ _) | gadget _ (.rmFunction _ _) | gadget _ (.rmBinding _ _) => true
  | _ => false

/-- A call that makes something, with a label that is not empty, and succeeds, or one that removes something. -/
def LibCall.Builds (M : Machine) (c : LibCall) (t : World Fs × State) : Prop :=
  (c.creates ∧ (c.run M t).1 = .ok () ∧ c.Labelled .legible) ∨ c.removes

namespace LibCall.Builds

variable {c : LibCall}

lemma labelled (h : c.Builds M t) : c.Labelled .legible := by
  rcases h with ⟨-, -, h⟩ | h
  · exact h
  · cases c with
    | gadget g c => cases c <;> trivial
    | importGadget file name => cases h
    | _ => trivial

/-- It leaves nothing behind: what removes something makes no directory. -/
lemma neat (h : c.Builds M t) : c.Neat M t := by
  intro p hp e t' hr
  rcases h with ⟨-, hok, -⟩ | h
  · rw [hr] at hok
    cases hok
  · have hnone : c.newDir t.2 = none := by
      cases c with
      | rmGadget g opts => rfl
      | gadget g c =>
        refine Option.bind_eq_none_iff.mpr fun _ _ => ?_
        cases c <;> first | rfl | cases h
      | _ => cases h
    rw [hnone] at hp
    cases hp

end LibCall.Builds

/-- A second `usbg_init` succeeds, and builds the same gadgets, functions, configurations and bindings. -/
structure Reopens (M' : Machine) (cfg : CStr) (w' : World Fs) (t : World Fs × State) : Prop where
  ends : Ends (fun s' _ => s'.gadgets.map Gadget.view = t.2.gadgets.map Gadget.view) (fun _ _ => False) False
    (usbgInit M'.kernel cfg w')

/-- After a run of creations that succeed and removals that may fail, a second process finds what the first one has in
its lists, if and only if the paths of the directories with functions fit into its buffers. -/
theorem usbgInit_reopens_iff (M M' : Machine) (cfg : CStr) (w₀ w w' : World Fs) (s : State) (t : World Fs × State)
    (hM : Configfs M cfg) (hstocks : M.Stocks cfg) (htree : Openable cfg w₀.tree)
    (hinit : usbgInit M.kernel cfg w₀ = (.ok s, w)) (hrun : Calls (LibCall.run M) (fun c t => c.Builds M t) (w, s) t)
    (hsame : w'.tree = t.1.tree) (hreads : M'.Reads) : Reopens M' cfg w' t ↔ FunctionPathsFit t.2 := by
  obtain ⟨h, ht, hS⟩ := reopenable_of_calls hM hstocks htree hinit
    (Calls.mono hrun fun _ _ hc => ⟨hc.labelled, hc.neat⟩)
  have hagain := h.usbgInit_again M' ht hS hsame
  constructor
  · rintro ⟨hends⟩
    obtain ⟨s', w'', -, -, hfit⟩ := ((hends.and hagain).mono_undef (fun _ _ hs => hs) (fun _ _ he => he.1)
      fun hu => hu.1).exists_ok
    exact hfit.2
  · intro hfit
    exact ⟨hagain.mono (fun _ _ hs => map_eq_of_shown (hs.1.imp fun _ _ hs => hs.view)) fun _ _ he => he hreads hfit⟩

/-- A function is bound in a configuration, and then neither of them is removed. -/
def buildingCalls : List LibCall :=
  [.gadget 0 (.createFunction .acm "0".toList none), .gadget 0 (.createConfig 1 none none none),
    .gadget 0 (.addConfigFunction 2 none 1), .gadget 0 (.rmConfig 2 false), .gadget 0 (.rmFunction 1 false)]

/-- The run of these calls. -/
def buildingRun : World Fs × State := afterCalls plainMachine plainStart buildingCalls

lemma labelled_buildingCalls : ∀ c ∈ buildingCalls, c.Labelled .legible := by
  simp only [buildingCalls, List.mem_cons, List.not_mem_nil, or_false]
  rintro c (rfl | rfl | rfl | rfl | rfl)
  · trivial
  · exact List.cons_ne_nil _ _
  · trivial
  · trivial
  · trivial

/-- The calls that make something succeed. -/
lemma LibCall.Builds.of_run {c : LibCall} (h : c.creates ∧ (c.run M t).1 = .ok () ∨ c.removes)
    (hlabel : c.Labelled .legible) : c.Builds M t := h.imp_left fun h => ⟨h.1, h.2, hlabel⟩

/-- A second process finds the function, the configuration and the binding. -/
theorem usbgInit_reopens_buildingRun : Reopens willing "/c".toList buildingRun.1 buildingRun := by
  obtain ⟨s, w, hs, hinit⟩ := usbgInit_plainStart
  have hrun : Calls (LibCall.run plainMachine) (fun c t => c.Builds plainMachine t) plainStart buildingRun :=
    Calls.mono (calls_of_runsAll (P := fun c t => c.creates ∧ (c.run plainMachine t).1 = .ok () ∨ c.removes)
      (by decide +kernel)) fun c t hc => .of_run hc.2 (labelled_buildingCalls c hc.1)
  exact (usbgInit_reopens_iff plainMachine willing "/c".toList (worldOf emptyGadgetTree) w buildingRun.1 s buildingRun
    configfs_plainMachine stocks_plainMachine openable_emptyGadgetTree hinit (hs ▸ hrun) rfl fun _ _ _ => rfl).mpr
    (show ∀ g ∈ buildingRun.2.gadgets, (g.dir ++ [functionsDir]).Fits by decide +kernel)

/-! ### A gadget that is not found again -/

/-- The tree of configfs before there are gadgets. -/
def bareTree (cfg : CStr) : Tree := FileTree.addAll .empty [([cfg], .dir false), ([cfg, gadgetsDir], .dir false)]

/-- The call that makes the gadget. -/
def newGadgetCall : LibCall := .createGadget "g".toList none none

lemma get_bareTree {p : Path} {n : Node CStr CStr} (h : (bareTree cfg).get p = some n) :
    (p = [cfg] ∨ p = [cfg, gadgetsDir]) ∧ n = .dir false := by
  rw [bareTree, FileTree.get_addAll, find?_key_cons, find?_key_cons] at h
  split at h
  · next hp => exact ⟨.inl hp.symm, (Option.some.inj h).symm⟩
  · split at h
    · next hp => exact ⟨.inr hp.symm, (Option.some.inj h).symm⟩
    · cases h

lemma isDir_bareTree : (bareTree cfg).IsDir [cfg, gadgetsDir] := by
  have hne : ([cfg] : Path) ≠ [cfg, gadgetsDir] := by simp
  rw [FileTree.IsDir, bareTree, FileTree.get_addAll, find?_key_cons, if_neg hne, find?_key_cons, if_pos rfl]
  rfl

/-- There is nothing below the directory of the gadgets. -/
lemma get_bareTree_below {x : CStr} (r : Path) : (bareTree cfg).get ([cfg, gadgetsDir, x] ++ r) = none :=
  Option.eq_none_iff_forall_ne_some.mpr fun n hn => by simpa using (get_bareTree hn).1

lemma rooted_bareTree : Rooted (bareTree cfg) := by
  refine rooted_of_entries fun e he => ?_
  rcases (get_bareTree (FileTree.get_eq_some.mpr he)).1 with hp | hp
  · exact .inl (by rw [hp]; rfl)
  · refine .inr ?_
    rw [hp, show [cfg, gadgetsDir].dropLast = [cfg] from rfl, FileTree.IsDir, bareTree, FileTree.get_addAll,
      find?_key_cons, if_pos rfl]
    rfl

lemma treeNamed_bareTree (cfg : CStr) (N : Naming) : TreeNamed cfg N (bareTree cfg) := by
  have hnone : ∀ x r, (bareTree cfg).made ([cfg, gadgetsDir, x] ++ r) = none := fun x r =>
    FileTree.made_of_get_none (get_bareTree_below r)
  exact
    { shaped :=
        { parents := rooted_bareTree
          names := fun q n hn y hy => by
            rcases (get_bareTree hn).1 with rfl | rfl
            · cases hy
            · obtain rfl := List.mem_singleton.mp hy
              decide
          nodes := fun q n hn => by
            obtain ⟨rfl | rfl, rfl⟩ := get_bareTree hn <;> rintro t ⟨⟩ }
      dir := isDir_bareTree
      configs := fun x c hn => absurd (hnone x [configsDir, c]) hn
      links := fun x k r text t _ hn => by cases (get_bareTree_below (k :: r)).symm.trans hn
      alive := fun x y text t hn => by cases (get_bareTree_below [osDescDir, y]).symm.trans hn
      one := fun x y z hn => absurd (hnone x [osDescDir, y]) hn }

lemma stocked_bareTree (cfg : CStr) : Stocked cfg (bareTree cfg) := fun _ r hx => absurd (get_bareTree_below r) hx

/-- `usbg_init` finds no gadget there. -/
lemma usbgInit_bareTree (cfg : CStr) (hreads : M.Reads) :
    ∃ s w, usbgInit M.kernel cfg (worldOf (bareTree cfg)) = (.ok s, w) ∧ w.tree = bareTree cfg ∧
      s.path = [cfg, gadgetsDir] ∧ s.gadgets = [] := by
  have hlisting : ∀ {x : CStr}, x ∉ listing (bareTree cfg) (Path.resolve [cfg, gadgetsDir]) fileSelect := by
    intro x hx
    obtain ⟨n, hn, -⟩ := mem_listing.mp hx
    cases (get_bareTree_below []).symm.trans hn
  obtain ⟨s, w, hinit, hread, hpath, hparsed⟩ := ((usbgInit_ends (M := M) (w := worldOf (bareTree cfg)) cfg).mono_undef
    (fun _ _ hs => hs) (fun _ _ he => he hreads ⟨isDir_bareTree, fun x hx => absurd hx hlisting⟩)
    fun hno => hlisting hno.choose_spec.1).exists_ok
  refine ⟨s, w, hinit, hread.1, hpath, ?_⟩
  have hgadgets := hparsed.gadgets
  rw [hpath, show listing (worldOf (bareTree cfg)).tree _ _ = [] from
    List.eq_nil_iff_forall_not_mem.mpr fun _ => hlisting] at hgadgets
  exact List.forall₂_nil_left_iff.mp hgadgets

lemma reads_configfsMachine (cfg : CStr) : (configfsMachine cfg).Reads := by
  intro c hc n
  cases c <;> first | rfl | cases hc

/-- What the kernel puts into the directory of a gadget is where it may be. -/
lemma nodeOk_newDir (cfg name : CStr) :
    ∀ e ∈ (configfsMachine cfg).newDir [cfg, gadgetsDir, name], NodeOk cfg e.1 e.2 := by
  have hok : ∀ r n, GadgetNode [cfg, gadgetsDir, name] r n → NodeOk cfg ([cfg, gadgetsDir, name] ++ r) n :=
    fun r n h => (if_pos (c := cfg = cfg ∧ gadgetsDir = gadgetsDir) ⟨rfl, rfl⟩).mpr h
  have hgroups : ∀ e ∈ gadgetGroups, ¬ UserPlace e.1 := by decide
  intro e he
  rcases List.mem_cons.mp he with rfl | he
  · exact hok [] _ (.inl trivial)
  · obtain ⟨⟨r, c⟩, hr, rfl⟩ := List.mem_map.mp he
    refine hok r _ ?_
    cases c <;> exact hgroups _ hr

/-- The gadget is made, and it is in the list. -/
lemma createGadget_bareTree {name : CStr} (hname : ProperName name) (hgadgets : s.gadgets = [])
    (hpath : s.path = [cfg, gadgetsDir]) (htree : w.tree = bareTree cfg)
    (hfits : Path.Fits [cfg, gadgetsDir, name, udcFile]) :
    Ends (fun _ t => ∃ g ∈ t.2.gadgets, g.dir = [cfg, gadgetsDir, name]) (fun _ _ => False) False
      (usbgCreateGadget (configfsMachine cfg).kernel name none none (w, s)) := by
  have hclean : Path.Clean [cfg, gadgetsDir, name] := (clean_gadgetsPath cfg).append (by simpa using hname.1)
  have hfree : (bareTree cfg).get [cfg, gadgetsDir, name] = none := get_bareTree_below []
  rw [usbgCreateGadget, createGadgetWith, self_bind_apply]
  refine Ends.require_bind (fun _ => ?_) fun hne => hne (by rw [usbgGetGadget, hgadgets]; rfl)
  refine Ends.bind (R := fun g t => g.dir = [cfg, gadgetsDir, name]) ?_ ?_
  · rw [usbgCreateEmptyGadget, self_bind_apply, hpath]
    refine Ends.require_bind (fun _ => ?_) fun hnot => hnot (prefix_fits ⟨[udcFile], rfl⟩ hfits)
    refine Ends.bind (R := fun g t => g.path = [cfg, gadgetsDir] ∧ g.name = name ∧ t.1.tree = bareTree cfg)
      (ends_io ⟨rfl, rfl, htree⟩) ?_
    rintro g ⟨w₁, s₁⟩ ⟨hgpath, hgname, htree₁⟩
    dsimp only at htree₁
    refine Ends.bind (R := fun _ t => t.1.tree = (bareTree cfg).addAll ((configfsMachine cfg).newDir
      [cfg, gadgetsDir, name])) (ends_io (ends_call (c := .mkdir [cfg, gadgetsDir, name]) ?_ ?_)) ?_
    · intro _ w₂ hok _
      have hmkdir := exec_mkdir.mp hok
      rw [hclean.2, htree₁] at hmkdir
      exact (mkdir_eq_ok.mp hmkdir).2.2.2
    · intro e w₂ hwhy _ _
      obtain ⟨errno, he, -⟩ := hwhy fun n => if_pos (by
        rw [hclean.2]
        exact nodeOk_newDir cfg name)
      have hmkdir := (mkdir_eq_ok (M := configfsMachine cfg)).mpr ⟨hfree, isDir_bareTree, hname, rfl⟩
      rw [htree₁, exec, hclean.2, hmkdir] at he
      cases he
    · rintro - ⟨w₂, s₂⟩ htree₂
      dsimp only at htree₂
      refine Ends.bind (R := fun _ _ => True) (ends_io (Ends.onFail (F := fun _ _ => False)
        (usbgReadString_ends.mono (fun _ _ _ => trivial) fun _ _ hwhy =>
          hwhy (reads_configfsMachine cfg) ⟨?_, ['\n'], ?_⟩) fun _ _ hf => hf.elim)) fun buf _ _ => ?_
      · -- the UDC file is one of the groups of the new directory
        rwa [hgpath, hgname]
      · have hudc : Path.Clean [cfg, gadgetsDir, name, udcFile] := hclean.append (q := [udcFile]) (by decide)
        rw [hgpath, hgname, htree₂, List.cons_append, List.cons_append, List.nil_append, hudc.2]
        exact get_newDir_group (configfs_configfsMachine cfg) rooted_bareTree hfree hclean.1 (r := [udcFile])
          (show ([udcFile], some ['\n']) ∈ gadgetGroups by decide)
      · have hdir : g.dir = [cfg, gadgetsDir, name] := by
          rw [Gadget.dir, hgpath, hgname]
          rfl
        cases (usbgGetUdc s buf).map Udc.addr with
        | none => exact hdir
        | some u => exact hdir
  · rintro g t hdir
    refine Ends.bind (R := fun _ _ => True) (ends_io trivial) fun _ _ _ => ?_
    exact ⟨g, mem_insertSorted.mpr (.inl rfl), hdir⟩

/-- If the path of the gadget leaves no room for that of its functions, a second process does not find it. -/
lemma not_reopens_bareTree (hcfg : '\x00' ∉ cfg) (hfits : Path.Fits [cfg, gadgetsDir, "g".toList, udcFile])
    (hlong : ¬ Path.Fits [cfg, gadgetsDir, "g".toList, functionsDir]) :
    ∃ s w t, usbgInit (configfsMachine cfg).kernel cfg (worldOf (bareTree cfg)) = (.ok s, w) ∧
      Calls (LibCall.run (configfsMachine cfg)) (fun c t => c.Builds (configfsMachine cfg) t) (w, s) t ∧
      ¬ Reopens willing cfg t.1 t := by
  have hM := configfs_configfsMachine cfg
  obtain ⟨s, w, hinit, htree, hpath, hgadgets⟩ := usbgInit_bareTree cfg (reads_configfsMachine cfg)
  obtain ⟨a, t, hcreate, g, hg, hdir⟩ := (createGadget_bareTree (by decide) hgadgets hpath htree hfits).exists_ok
  have hrun : newGadgetCall.run (configfsMachine cfg) (w, s) = (.ok (), t) := bind_ok hcreate
  have hcalls : Calls (LibCall.run (configfsMachine cfg)) (fun c t => c.Builds (configfsMachine cfg) t) (w, s) t :=
    Relation.ReflTransGen.single ⟨newGadgetCall, .ok (), .inl ⟨rfl, by rw [hrun], trivial⟩, by simp, hrun⟩
  refine ⟨s, w, t, hinit, hcalls, fun hr => hlong ?_⟩
  obtain ⟨h, ht, hS⟩ := reopenable_of_calls hM (stocks_configfsMachine cfg)
    (show Openable cfg (worldOf (bareTree cfg)).tree from ⟨treeNamed_bareTree cfg _, stocked_bareTree cfg, hcfg⟩) hinit
    (Calls.mono hcalls fun _ _ hc => ⟨hc.labelled, hc.neat⟩)
  obtain ⟨s', w', -, -, hfit⟩ := ((hr.ends.and (h.usbgInit_again willing ht hS rfl)).mono_undef
    (fun _ _ hs => hs) (fun _ _ he => he.1) fun hu => hu.1).exists_ok
  have hg' := hfit.2 g hg
  rwa [hdir] at hg'

/-- A path of configfs with 4075 characters. -/
def deepMount : CStr := (List.replicate 20 ('/' :: List.replicate 202 'c')).flatten ++ '/' :: List.replicate 14 'c'

/-- The paths in the directory of a gadget there -/
lemma len_deepMount (z : CStr) : Path.len [deepMount, gadgetsDir, "g".toList, z] = 4089 + z.length := by
  have hlength : deepMount.length = 4075 := by
    simp only [deepMount, List.length_append, List.length_flatten, List.map_replicate, List.sum_replicate_nat,
      List.length_cons, List.length_replicate]
  have hshort : gadgetsDir.length = 10 ∧ ("g".toList : CStr).length = 1 := by decide
  simp only [Path.len, List.map_cons, List.map_nil, List.sum_cons, List.sum_nil, List.length_cons, List.length_nil,
    hlength, hshort]
  omega

lemma fits_deepMount : Path.Fits [deepMount, gadgetsDir, "g".toList, udcFile] := by
  rw [Path.Fits, len_deepMount]
  decide

/-- A second process fails on a gadget that the first one has made. -/
theorem usbgInit_deepMount_fails :
    Configfs (configfsMachine deepMount) deepMount ∧ (configfsMachine deepMount).Stocks deepMount ∧
      Openable deepMount (bareTree deepMount) ∧ willing.Reads ∧
      ∃ s w t, usbgInit (configfsMachine deepMount).kernel deepMount (worldOf (bareTree deepMount)) = (.ok s, w) ∧
        Calls (LibCall.run (configfsMachine deepMount)) (fun c t => c.Builds (configfsMachine deepMount) t) (w, s) t ∧
        ¬ Reopens willing deepMount t.1 t := by
  have hcfg : '\x00' ∉ deepMount := by
    intro h
    simp only [deepMount, List.mem_append, List.mem_flatten, List.mem_cons, List.mem_replicate] at h
    rcases h with ⟨l, ⟨-, rfl⟩, h⟩ | h | h
    · revert h
      decide
    · cases h
    · cases h.2
  exact ⟨configfs_configfsMachine _, stocks_configfsMachine _, ⟨treeNamed_bareTree _ _, stocked_bareTree _, hcfg⟩,
    fun _ _ _ => rfl, not_reopens_bareTree hcfg fits_deepMount (by rw [Path.Fits, len_deepMount]; decide)⟩

end Libusbgx
