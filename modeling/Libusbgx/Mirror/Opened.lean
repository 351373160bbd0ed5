import Libusbgx.Mirror.State

/-!
# After `usbg_init`

What `usbg_init` builds mirrors the tree that it has read, if the tree is one that configfs and the library have
made: the directories of configurations have the names that the library gives them, and the texts of links end in
the names of what they lead to.
-/

namespace Libusbgx

open Prog Machine

variable {M : Machine} {cfg x c : CStr} {N : Naming} {T : Tree} {w w' : World Fs} {g : Gadget} {s : State}
  {lo hi : Addr}
  {d r t : Path} {text : CStr}

/-- The name of an entry. -/
def nameOf (p : Path) : CStr := p.getLastD []

/-- The text of the link ends in the name of what it leads to. -/
def EndsIn (text : CStr) (t : Path) : Prop := ∃ pre, cutLast '/' (linkText text) = some (pre, nameOf t)

instance (text : CStr) (t : Path) : Decidable (EndsIn text t) :=
  decidable_of_iff ((cutLast '/' (linkText text)).any (fun pq => pq.2 = nameOf t) = true) <| by
    rcases h : cutLast '/' (linkText text) with _ | ⟨pre, part⟩ <;> simp [EndsIn, h]

lemma render_cons_cons (x y : CStr) (p : Path) : Path.render (x :: y :: p) = x ++ '/' :: Path.render (y :: p) := by
  rw [Path.render, List.intercalate_cons_cons, List.append_assoc]
  rfl

lemma length_render (p : Path) : p.render.length = p.len := by
  induction p with
  | nil => rfl
  | cons x p ih =>
    cases p with
    | nil => simp [Path.render, Path.len]
    | cons y p =>
      rw [render_cons_cons, List.length_append, List.length_cons, ih]
      simp only [Path.len, List.map_cons, List.sum_cons, List.length_cons]
      omega

lemma mem_render {p : Path} {c : Char} (h : c ∈ p.render) : c = '/' ∨ ∃ x ∈ p, c ∈ x := by
  induction p with
  | nil => cases h
  | cons x p ih =>
    cases p with
    | nil => exact .inr ⟨x, List.mem_singleton_self x, by simpa [Path.render] using h⟩
    | cons y p =>
      rw [render_cons_cons, List.mem_append, List.mem_cons] at h
      rcases h with h | rfl | h
      · exact .inr ⟨x, List.mem_cons_self, h⟩
      · exact .inl rfl
      · exact (ih h).imp_right fun hx => hx.imp fun _ hx => ⟨List.mem_cons_of_mem _ hx.1, hx.2⟩

/-- The text of a path ends in the last of its names. -/
lemma exists_render_concat {p : Path} (hp : p ≠ []) (x : CStr) : ∃ pre, Path.render (p ++ [x]) = pre ++ '/' :: x := by
  induction p with
  | nil => exact absurd rfl hp
  | cons y p ih =>
    cases p with
    | nil => exact ⟨y, by simp [Path.render]⟩
    | cons z p =>
      obtain ⟨pre, hpre⟩ := ih (List.cons_ne_nil z p)
      rw [List.cons_append, List.cons_append, render_cons_cons, ← List.cons_append, hpre]
      exact ⟨y ++ '/' :: pre, by simp⟩

/-- The text that the library gives to a link is not cut when it is read. -/
lemma endsIn_render {p : Path} (hp : p ≠ []) {x : CStr} (hx : '/' ∉ x) (hnul : ∀ y ∈ p ++ [x], '\x00' ∉ y)
    (hfits : Path.Fits (p ++ [x])) : EndsIn (Path.render (p ++ [x])) (p ++ [x]) := by
  have htext : linkText (Path.render (p ++ [x])) = Path.render (p ++ [x]) := by
    have hlen : (Path.render (p ++ [x])).length ≤ usbgMaxPathLength - 1 := by
      rw [length_render]
      exact Nat.le_sub_one_of_lt hfits
    rw [linkText, List.take_of_length_le hlen, ofBuffer, List.takeWhile_eq_self_iff]
    intro c hc
    rw [decide_eq_true_eq]
    rintro rfl
    rcases mem_render hc with hslash | ⟨y, hy, hcy⟩
    · cases hslash
    · exact hnul y hy hcy
  obtain ⟨pre, hpre⟩ := exists_render_concat hp x
  refine ⟨pre, ?_⟩
  rw [htext, hpre, cutLast_append hx, nameOf, List.getLastD_concat]

/-- A tree that configfs and the library have made. -/
structure TreeNamed (cfg : CStr) (N : Naming) (T : Tree) : Prop where
  shaped : Shaped cfg T
  dir : T.IsDir [cfg, gadgetsDir]
  configs : ∀ x c, T.made [cfg, gadgetsDir, x, configsDir, c] ≠ none →
    ∃ label id, label ≠ [] ∧ N.label label ∧ 0 < id ∧ id ≤ 255 ∧ c = configName label id
  links : ∀ x k r text t, k ≠ functionsDir → T.get ([cfg, gadgetsDir, x, k] ++ r) = some (.link text t) →
    N.link text t ∧ EndsIn text t
  alive : ∀ x y text t, T.get [cfg, gadgetsDir, x, osDescDir, y] = some (.link text t) → T.IsDir t
  one : ∀ x y z, T.made [cfg, gadgetsDir, x, osDescDir, y] ≠ none → T.made [cfg, gadgetsDir, x, osDescDir, z] ≠ none →
    y = z

lemma eq_append_nameOf (h : t.dropLast = d) (ht : t ≠ []) : t = d ++ [nameOf t] := by
  rw [← h, nameOf, List.getLastD_eq_getLast?, List.getLast?_eq_some_getLast ht]
  exact (List.dropLast_append_getLast ht).symm

namespace TreeNamed

/-- What is listed where the user makes directories, is a directory that the user has made. -/
lemma made_of_mem_listing (h : TreeNamed cfg N T) (hp : UserPlace (r ++ [c]))
    (hc : c ∈ listing T ([cfg, gadgetsDir, x] ++ r) fileSelect) :
    T.made ([cfg, gadgetsDir, x] ++ (r ++ [c])) = some (.dir true) := by
  obtain ⟨n, hn, -⟩ := mem_listing.mp hc
  rw [List.append_assoc] at hn
  obtain rfl := h.shaped.get_userPlace hp hn
  exact FileTree.made_eq_some.mpr ⟨hn, rfl⟩

/-- Whatever is there is listed. -/
lemma mem_listing_of_made (h : TreeNamed cfg N T) {p : Path} (hp : p ≠ []) (hn : T.made (p ++ [c]) ≠ none) :
    c ∈ listing T p fileSelect := by
  obtain ⟨n, hn⟩ := Option.ne_none_iff_exists'.mp hn
  have hget := (FileTree.made_eq_some.mp hn).1
  have hproper : ProperName c := h.shaped.names _ _ hget c (by simp [List.tail_append_of_ne_nil hp])
  exact mem_listing.mpr ⟨n, hget, by simpa [fileSelect] using And.intro hproper.2.1 hproper.2.2.1⟩

/-- The directory of a configuration. -/
lemma configName_of_made (h : TreeNamed cfg N T) (hn : T.made [cfg, gadgetsDir, x, configsDir, c] ≠ none) {label : CStr}
    {id : ℤ} (hsplit : usbgSplitConfigLabelId c = .ok (label, id)) :
    c = configName label id ∧ N.label label ∧ 0 < id ∧ id ≤ 255 := by
  obtain ⟨label', id', hne, hlabel, h0, h255, rfl⟩ := h.configs x c hn
  rw [usbgSplitConfigLabelId_configName hne (le_of_lt h0) h255] at hsplit
  obtain ⟨rfl, rfl⟩ := Prod.mk.inj (Except.ok.inj hsplit)
  exact ⟨rfl, hlabel, h0, h255⟩

lemma numbered_of_made (h : TreeNamed cfg N T)
    (hn : T.made [cfg, gadgetsDir, x, configsDir, c] ≠ none) : Numbered c := by
  obtain ⟨label, id, hne, -, h0, h255, rfl⟩ := h.configs x c hn
  exact ⟨label, id, usbgSplitConfigLabelId_configName hne (le_of_lt h0) h255, ne_of_gt h0⟩

end TreeNamed

namespace ParsedGadget

/-- The directories of a gadget. -/
lemma resolve_sub (hpath : g.path = [cfg, gadgetsDir]) (hname : g.name ≠ []) {sub : CStr} (hsub : sub ≠ []) :
    (g.path ++ [g.name, sub]).resolve = [cfg, gadgetsDir, g.name, sub] := by
  rw [hpath]
  simp [Path.resolve, hname, hsub]

lemma dir_sub (hpath : g.path = [cfg, gadgetsDir]) (r : Path) : g.dir ++ r = [cfg, gadgetsDir, g.name] ++ r := by
  rw [Gadget.dir, hpath]
  rfl

/-- A function that was read. -/
lemma funcMirrored (h : ParsedGadget T lo hi g) (htree : TreeNamed cfg N T) (hpath : g.path = [cfg, gadgetsDir])
    (hname : g.name ≠ []) {f : Func} (hf : f ∈ g.functions) : FuncMirrored T g.dir f := by
  obtain ⟨x, hx, hp⟩ := exists_of_forall₂ h.functions hf
  rw [resolve_sub hpath hname functionsDir_ne_nil] at hx
  refine ⟨?_, ?_, hp.named⟩
  · rw [hp.path, dir_sub hpath, hpath]
    rfl
  · rw [dir_sub hpath, hp.name_eq]
    exact htree.made_of_mem_listing (r := [functionsDir]) (.inr (.inr rfl)) hx

/-- A configuration that was read has the name of its directory. -/
lemma config_name (htree : TreeNamed cfg N T) (hpath : g.path = [cfg, gadgetsDir])
    (hname : g.name ≠ []) {y : CStr} {fs : List Func} {c : Config}
    (hy : y ∈ listing T (g.path ++ [g.name, configsDir]).resolve fileSelect)
    (hp : ParsedConfig T (g.path ++ [g.name, configsDir]) fs y c) :
    c.name = y ∧ T.made (g.dir ++ [configsDir, y]) = some (.dir true) ∧ N.label c.label ∧ 0 < c.id ∧ c.id ≤ 255 := by
  rw [resolve_sub hpath hname configsDir_ne_nil] at hy
  have hmade := htree.made_of_mem_listing (r := [configsDir]) (.inr (.inl rfl)) hy
  have hne : T.made [cfg, gadgetsDir, g.name, configsDir, y] ≠ none := by
    intro hn
    rw [show [cfg, gadgetsDir, g.name] ++ ([configsDir] ++ [y]) = [cfg, gadgetsDir, g.name, configsDir, y] from rfl, hn]
      at hmade
    cases hmade
  obtain ⟨hy', hlabel, h0, h255⟩ := htree.configName_of_made hne hp.split
  refine ⟨hp.name_eq.trans hy'.symm, ?_, hlabel, h0, h255⟩
  rw [dir_sub hpath]
  exact hmade

/-- A binding that was read. -/
lemma bindingMirrored (htree : TreeNamed cfg N T) (hpath : g.path = [cfg, gadgetsDir]) {fs : List Func} {c y : CStr}
    {b : Binding} (hclean : (g.dir ++ [configsDir, c]).Clean)
    (hy : y ∈ listing T (g.dir ++ [configsDir, c]) bindingsSelect)
    (hp : ParsedBinding T fs (g.dir ++ [configsDir, c]) y b) : BindingMirrored N T g.dir fs c b := by
  obtain ⟨n, hn, hlink⟩ := mem_listing.mp hy
  obtain ⟨text, t, rfl⟩ := Node.isLink_iff.mp hlink
  have hyne : y ≠ [] := (htree.shaped.names _ _ hn y (by simp [dir_sub hpath])).1
  rw [dir_sub hpath, List.append_assoc] at hn
  -- configfs only lets the link lead to a function of the gadget
  have hplace := (htree.shaped.gadgetNode hn).1
  have htarget : t.dropLast = g.dir ++ [functionsDir] := by
    rw [dir_sub hpath]
    rcases hplace.cases with ⟨z, hz, -⟩ | ⟨c', z, hz, -, ht⟩ | ⟨f, s, -, hz, -⟩
    · simp at hz
    · exact ht
    · simp at hz
  obtain ⟨hN, pre, hcut⟩ := htree.links g.name configsDir [c, y] text t configsDir_ne_functionsDir hn
  obtain ⟨f, hf, haddr, text', t', pre', hget, hcut'⟩ := hp.target
  rw [(hclean.append (q := [y]) (by simpa using hyne)).2, dir_sub hpath, List.append_assoc, hn] at hget
  obtain ⟨rfl, rfl⟩ := Node.link.inj (Option.some.inj hget)
  rw [hcut] at hcut'
  obtain ⟨rfl, hfname⟩ := Prod.mk.inj (Option.some.inj hcut')
  have htne : t ≠ [] := by
    rintro rfl
    exact absurd htarget (by simp)
  have ht : t = g.dir ++ [functionsDir, f.name] := by
    rw [eq_append_nameOf htarget htne, hfname, List.append_assoc]
    rfl
  refine ⟨hp.path, ?_, f, hf, haddr, text, ht ▸ hN, ?_⟩
  · rw [hp.name_eq]
    simpa using hp.fits
  rw [hp.name_eq, ← ht, dir_sub hpath]
  exact FileTree.made_eq_some.mpr ⟨hn, rfl⟩

/-- A configuration that was read. -/
lemma configMirrored (h : ParsedGadget T lo hi g) (htree : TreeNamed cfg N T) (hpath : g.path = [cfg, gadgetsDir])
    (hname : g.name ≠ []) {c : Config} (hc : c ∈ g.configs) : ConfigMirrored N T g.dir g.functions c := by
  obtain ⟨y, hy, hp⟩ := h.config hc
  obtain ⟨rfl, hmade, hlabel, hid⟩ := config_name htree hpath hname hy hp
  have hcpath : c.path = g.dir ++ [configsDir] := by
    rw [hp.path, Gadget.dir, List.append_assoc]
    rfl
  have hcdir : c.dir = g.dir ++ [configsDir, c.name] := by
    rw [Config.dir, hcpath, List.append_assoc]
    rfl
  have hclean : (g.dir ++ [configsDir, c.name]).Clean :=
    htree.shaped.clean (FileTree.made_eq_some.mp hmade).1 (by simp)
  have hbindings := hp.bindings
  rw [hcdir, hclean.2] at hbindings
  refine ⟨hcpath, hcdir ▸ hp.fits, hmade, hp.name_eq, hid, hlabel, ?_, fun b hb => ?_, fun z hz => ?_⟩
  · rw [map_eq_of_forall₂ hbindings fun _ _ _ h => h.name_eq]
    exact listing_pairwise _ _ _
  · obtain ⟨z, hz, hbp⟩ := exists_of_forall₂ hbindings hb
    exact bindingMirrored htree hpath hclean hz hbp
  · -- what is made directly in the directory of a configuration is a link
    obtain ⟨n, hn⟩ := Option.ne_none_iff_exists'.mp hz
    obtain ⟨hget, hmade'⟩ := FileTree.made_eq_some.mp hn
    rw [dir_sub hpath] at hget
    have hlink : n.isLink := by
      have hok := htree.shaped.gadgetNode hget
      rcases n with made | content | ⟨text, t⟩
      · rw [Node.made_dir] at hmade'
        rw [hmade'] at hok
        exact (hok.elim (fun hplace => hplace) fun hin => absurd hin.1 configsDir_ne_functionsDir).elim
      · cases hmade'
      · rfl
    rw [← dir_sub hpath] at hget
    have hmem : z ∈ listing T (g.dir ++ [configsDir, c.name]) bindingsSelect :=
      mem_listing.mpr ⟨n, by rw [List.append_assoc]; exact hget, hlink⟩
    obtain ⟨b, hb, hbp⟩ := exists_of_forall₂' hbindings hmem
    exact ⟨b, hb, hbp.name_eq⟩

/-- The link that was read. -/
lemma osMirrored (h : ParsedGadget T lo hi g) (htree : TreeNamed cfg N T) (hpath : g.path = [cfg, gadgetsDir])
    (hname : g.name ≠ []) : OsMirrored N T g := by
  have hclean : Path.Clean [cfg, gadgetsDir, g.name, osDescDir] :=
    (clean_gadgetsPath cfg).append (by simp [hname])
  have hone : ∀ y z, T.made (g.dir ++ [osDescDir, y]) ≠ none → T.made (g.dir ++ [osDescDir, z]) ≠ none → y = z := by
    rw [Gadget.dir, hpath]
    exact fun y z => htree.one g.name y z
  -- the first link is the only one
  have hfirst : ∀ y text t, T.made (g.dir ++ [osDescDir, y]) = some (.link text t) →
      ∃ names, listing T [cfg, gadgetsDir, g.name, osDescDir] bindingsSelect = y :: names := by
    intro y text t hl
    have hget := (FileTree.made_eq_some.mp hl).1
    rw [dir_sub hpath] at hget
    have hmem : y ∈ listing T [cfg, gadgetsDir, g.name, osDescDir] bindingsSelect := mem_listing.mpr ⟨_, hget, rfl⟩
    rcases hlist : listing T [cfg, gadgetsDir, g.name, osDescDir] bindingsSelect with - | ⟨first, names⟩
    · rw [hlist] at hmem
      cases hmem
    obtain ⟨n, hn, hsel⟩ := mem_listing.mp
      (show first ∈ listing T [cfg, gadgetsDir, g.name, osDescDir] bindingsSelect by rw [hlist]; simp)
    obtain ⟨text', t', rfl⟩ := Node.isLink_iff.mp hsel
    have hmade : T.made (g.dir ++ [osDescDir, first]) = some (.link text' t') := by
      rw [dir_sub hpath]
      exact FileTree.made_eq_some.mpr ⟨hn, rfl⟩
    exact ⟨names, by rw [hone first y (by rw [hmade]; simp) (by rw [hl]; simp)]⟩
  refine ⟨fun y text t hl => ?_, fun y text t hl => ?_, hone, fun y hy => ?_⟩
  rotate_left
  · have hget := (FileTree.made_eq_some.mp hl).1
    rw [dir_sub hpath] at hget
    exact (htree.links g.name osDescDir [y] text t osDescDir_ne_functionsDir hget).1
  · obtain ⟨n, hn⟩ := Option.ne_none_iff_exists'.mp hy
    obtain ⟨text, t, rfl⟩ := htree.shaped.os_link (dir_sub hpath _ ▸ hn)
    obtain ⟨names, hlist⟩ := hfirst y text t hn
    have hfits := h.osDescFits y (by rw [resolve_sub hpath hname (by simp), hlist]; rfl)
    simpa [Gadget.dir] using hfits
  have hget := (FileTree.made_eq_some.mp hl).1
  rw [dir_sub hpath] at hget
  have hyne : y ≠ [] := (htree.shaped.names _ _ hget y (by simp)).1
  -- configfs only lets the link lead to a configuration of the gadget
  have hplace := (htree.shaped.gadgetNode hget).1
  have htarget : t.dropLast = g.dir ++ [configsDir] := by
    rw [dir_sub hpath]
    rcases hplace.cases with ⟨z, -, ht⟩ | ⟨c', z, hz, -⟩ | ⟨f, s, -, hz, -⟩
    · exact ht
    · simp at hz
    · simp at hz
  have htne : t ≠ [] := by
    rintro rfl
    exact absurd htarget (by simp)
  have ht := eq_append_nameOf htarget htne
  obtain ⟨-, pre, hcut⟩ := htree.links g.name osDescDir [y] text t osDescDir_ne_functionsDir hget
  have ho := h.osDesc
  rw [ParsedOsDesc, resolve_sub hpath hname (by simp)] at ho
  obtain ⟨names, hlist⟩ := hfirst y text t hl
  rw [hlist] at ho
  obtain ⟨part, label, id, ⟨text'', t'', pre'', hget'', hcut''⟩, hsplit, hos⟩ := ho
  have hclean' : Path.Clean [cfg, gadgetsDir, g.name, osDescDir, y] :=
    (clean_gadgetsPath cfg).append (q := [g.name, osDescDir, y]) (by simp [hname, hyne])
  rw [show g.path ++ [g.name, osDescDir] ++ [y] = [cfg, gadgetsDir, g.name, osDescDir, y] by rw [hpath]; rfl,
    hclean'.2, show T.get [cfg, gadgetsDir, g.name, osDescDir, y] = some (.link text t) from hget] at hget''
  obtain ⟨rfl, rfl⟩ := Node.link.inj (Option.some.inj hget'')
  rw [hcut] at hcut''
  obtain ⟨rfl, rfl⟩ := Prod.mk.inj (Option.some.inj hcut'')
  -- the directory that the link leads to has the name of a configuration
  have hmade : T.made [cfg, gadgetsDir, g.name, configsDir, nameOf t] ≠ none := by
    obtain ⟨b, hb⟩ := FileTree.isDir_iff.mp (htree.alive _ _ _ _ hget)
    rw [ht, dir_sub hpath, List.append_assoc] at hb
    obtain hdir := htree.shaped.get_userPlace (r := [configsDir, nameOf t]) (.inr (.inl rfl)) hb
    rw [hdir] at hb
    rw [show T.made [cfg, gadgetsDir, g.name, configsDir, nameOf t] = some (.dir true) from
      FileTree.made_eq_some.mpr ⟨hb, rfl⟩]
    simp
  obtain ⟨hpart, -, hid, -⟩ := htree.configName_of_made hmade hsplit
  rcases hos with ⟨hzero, -⟩ | ⟨c, hc, rfl, rfl, hos⟩
  · omega
  · refine ⟨c, hc, hos, ?_⟩
    rw [(h.configMirrored htree hpath hname hc).named, ← hpart]
    rw [List.append_assoc] at ht
    exact ht

/-- A gadget that was read. -/
lemma mirrored {w : World Fs} (h : ParsedGadget w.tree lo w.next g) (htree : TreeNamed cfg N w.tree)
    (hpath : g.path = [cfg, gadgetsDir]) (hname : g.name ∈ listing w.tree [cfg, gadgetsDir] fileSelect) :
    GadgetMirrored cfg N w g := by
  have hmade : w.tree.made ([cfg, gadgetsDir, g.name] ++ []) = some (.dir true) := by
    obtain ⟨n, hn, -⟩ := mem_listing.mp hname
    obtain rfl := htree.shaped.get_userPlace (r := []) trivial hn
    exact FileTree.made_eq_some.mpr ⟨hn, rfl⟩
  have hne : g.name ≠ [] := (htree.shaped.names _ _ (FileTree.made_eq_some.mp hmade).1 g.name (by simp)).1
  exact
    { shaped := htree.shaped
      path := hpath
      made := by
        rw [← dir_sub hpath, List.append_nil] at hmade
        exact hmade
      functions := fun f hf => h.funcMirrored htree hpath hne hf
      configs := fun c hc => h.configMirrored htree hpath hne hc
      functionNames := by
        rw [map_eq_of_forall₂ h.functions fun _ _ _ h => h.name_eq]
        exact listing_pairwise _ _ _
      configNames := by
        -- the name that is built anew is that of the directory
        have hnames : g.configs.map Config.name =
            (listing w.tree (g.path ++ [g.name, configsDir]).resolve fileSelect).filter (Numbered ·) :=
          map_eq_of_forall₂ h.configs fun y hy c hp =>
            (config_name htree hpath hne (List.mem_filter.mp hy).1 hp).1
        rw [hnames]
        exact (listing_pairwise _ _ _).filter _
      functionAddrs := h.functionAddrs.nodup
      configAddrs := h.configAddrs.nodup
      os := h.osMirrored htree hpath hne
      freshFunctions := fun f hf => (h.functionAddrs.range _ (List.mem_map_of_mem hf)).2
      freshConfigs := fun c hc => (h.configAddrs.range _ (List.mem_map_of_mem hc)).2
      freshOs := fun a ha => by
        have ho := h.osDesc
        rw [ParsedOsDesc] at ho
        split at ho
        · rw [ho] at ha
          cases ha
        · obtain ⟨part, label, id, -, -, ⟨-, ho⟩ | ⟨c, hc, -, -, ho⟩⟩ := ho
          · rw [ho] at ha
            cases ha
          · obtain rfl : c.addr = a := Option.some.inj (ho.symm.trans ha)
            exact (h.configAddrs.range _ (List.mem_map_of_mem hc)).2 }

/-- Nothing was passed over. -/
lemma tidy (h : ParsedGadget T lo hi g) (htree : TreeNamed cfg N T) (hpath : g.path = [cfg, gadgetsDir])
    (hname : g.name ≠ []) : Tidy T g where
  functions y hy := by
    rw [dir_sub hpath] at hy
    have hmem := htree.mem_listing_of_made (p := [cfg, gadgetsDir, g.name, functionsDir]) (List.cons_ne_nil _ _) hy
    rw [← resolve_sub hpath hname functionsDir_ne_nil] at hmem
    obtain ⟨f, hf, hp⟩ := exists_of_forall₂' h.functions hmem
    exact ⟨f, hf, hp.name_eq⟩
  configs y hy := by
    rw [dir_sub hpath] at hy
    have hmem := htree.mem_listing_of_made (p := [cfg, gadgetsDir, g.name, configsDir]) (List.cons_ne_nil _ _) hy
    rw [← resolve_sub hpath hname configsDir_ne_nil] at hmem
    obtain ⟨c, hc, hp⟩ := exists_of_forall₂' h.configs
      (List.mem_filter.mpr ⟨hmem, decide_eq_true (htree.numbered_of_made hy)⟩)
    exact ⟨c, hc, (config_name htree hpath hname hmem hp).1⟩

end ParsedGadget

/-- A successful `usbg_init` leaves the lists in step with the tree, and passes over nothing. -/
lemma usbgInit_mirrored {w₀ : World Fs} (htree : TreeNamed cfg N w₀.tree)
    (hinit : usbgInit M.kernel cfg w₀ = (.ok s, w)) :
    StateMirrored cfg N (w, s) ∧ StateTidy cfg (w, s) := by
  have hends := usbgInit_ends (M := M) (w := w₀) cfg
  rw [hinit] at hends
  obtain ⟨⟨ht, -⟩, hpath, h⟩ := hends
  rw [← ht] at htree h
  have hgadgets := h.gadgets
  rw [hpath, (clean_gadgetsPath cfg).2] at hgadgets
  have heach : ∀ g ∈ s.gadgets, g.name ∈ listing w.tree [cfg, gadgetsDir] fileSelect ∧ g.path = [cfg, gadgetsDir] ∧
      ParsedGadget w.tree w₀.next w.next g := by
    intro g hg
    obtain ⟨x, hx, rfl, hp, hparsed⟩ := exists_of_forall₂ hgadgets hg
    exact ⟨hx, hp, hparsed⟩
  refine ⟨⟨htree.shaped, hpath, htree.dir, fun g hg => ?_, ?_, h.gadgetAddrs.nodup, fun g hg => ?_⟩,
    fun x hx => ?_, fun g hg => ?_⟩
  · obtain ⟨hx, hp, hparsed⟩ := heach g hg
    exact hparsed.mirrored htree hp hx
  · show Increasing (s.gadgets.map Gadget.name)
    rw [map_eq_of_forall₂ hgadgets fun _ _ _ h => h.1]
    exact listing_pairwise _ _ _
  · exact (h.gadgetAddrs.range _ (List.mem_map_of_mem hg)).2
  · have hmem := htree.mem_listing_of_made (p := [cfg, gadgetsDir]) (List.cons_ne_nil _ _) hx
    obtain ⟨g, hg, hgx, -⟩ := exists_of_forall₂' hgadgets hmem
    exact ⟨g, hg, hgx⟩
  · obtain ⟨hx, hp, hparsed⟩ := heach g hg
    obtain ⟨n, hn, -⟩ := mem_listing.mp hx
    exact hparsed.tidy htree hp (htree.shaped.names _ _ hn g.name (by simp)).1

end Libusbgx
