import Libusbgx.Base.Aligned
import Libusbgx.Configfs.Parsed

/-!
# The state after `usbg_init`

For every configfs tree, whatever its names, links and files are, `usbg_init` returns an error or
a state whose lists are in order and whose pointers and paths lead somewhere, but for two kinds of
tree: a link whose text has no slash, behind which the library looks all the same, and two directories
of one gadget whose names it takes for the same configuration.
-/

namespace Libusbgx

open Prog Machine

/-! ## Trees -/

/-- A tree as configfs builds it: no name is empty, and there are no files among the gadgets and
among the functions of a gadget. -/
structure ConfigfsTree (T : Tree) (cfg : CStr) : Prop where
  named : ∀ e ∈ T.entries, ∀ name ∈ e.1.tail, name ≠ []
  files : ∀ e ∈ T.entries, e.2.isFile → e.1.dropLast ≠ [cfg, gadgetsDir] ∧
    ∀ g ∈ e.1, e.1.dropLast ≠ [cfg, gadgetsDir, g, functionsDir]

/-- The names of two directories in the directory of the configurations of a gadget do not stand for the
same label and number. -/
def ConfigsApart (T : Tree) (cfg : CStr) : Prop :=
  ∀ g ∈ listing T (Path.resolve [cfg, gadgetsDir]) fileSelect,
    ∀ name ∈ listing T (Path.resolve [cfg, gadgetsDir, g, configsDir]) fileSelect, Numbered name →
      ∀ name' ∈ listing T (Path.resolve [cfg, gadgetsDir, g, configsDir]) fileSelect,
        (usbgSplitConfigLabelId name).toOption = (usbgSplitConfigLabelId name').toOption → name = name'

instance (T : Tree) (cfg : CStr) : Decidable (ConfigsApart T cfg) :=
  inferInstanceAs (Decidable (∀ g ∈ listing _ _ _, ∀ name ∈ listing _ _ _, _ → ∀ name' ∈ listing _ _ _,
    _ → _))

/-- The text of every link has a slash. -/
def LinksHaveSlash (T : Tree) : Prop :=
  ∀ e ∈ T.entries, ∀ text ∈ e.2.text?, '/' ∈ linkText text

instance (T : Tree) : Decidable (LinksHaveSlash T) :=
  inferInstanceAs (Decidable (∀ e ∈ T.entries, ∀ text ∈ e.2.text?, '/' ∈ linkText text))

lemma LinksHaveSlash.not_slashless {T : Tree} (h : LinksHaveSlash T) (p : Path) : ¬ Slashless T p := by
  rintro ⟨text, target, hget, hno⟩
  exact hno (h _ (FileTree.get_eq_some.mp hget) text rfl)

lemma LinksHaveSlash.not_linkWithoutSlash {T : Tree} {cfg : CStr} (h : LinksHaveSlash T) :
    ¬ LinkWithoutSlash T cfg := by
  rintro ⟨name, -, ⟨conf, -, label, id, -, -, link, -, hno⟩ | ⟨link, -, hno⟩⟩
  · exact h.not_slashless _ hno
  · exact h.not_slashless _ hno

/-- A directory or a link is at the path. -/
def Present (T : Tree) (p : Path) : Prop := ∃ n, T.get p.resolve = some n ∧ (n.isDir ∨ n.isLink)

/-! ## States -/

/-- The names are in strictly increasing order. -/
def Increasing (names : List CStr) : Prop := names.Pairwise (· < ·)

/-- A gadget whose lists are in order and whose pointers and paths lead somewhere. -/
structure GadgetWellFormed (T : Tree) (g : Gadget) : Prop where
  functions : Increasing (g.functions.map Func.name)
  configs : Increasing (g.configs.map Config.name)
  bindings : ∀ c ∈ g.configs, Increasing (c.bindings.map Binding.name)
  ids : ∀ c ∈ g.configs, 1 ≤ c.id ∧ c.id ≤ 255
  targets : ∀ c ∈ g.configs, ∀ b ∈ c.bindings, ∃ f ∈ g.functions, f.addr = b.target
  osDesc : ∀ a, g.osDescBinding = some a → ∃ c ∈ g.configs, c.addr = a
  gadgetPath : Present T (g.path ++ [g.name])
  functionPaths : ∀ f ∈ g.functions, Present T (f.path ++ [f.name])
  configPaths : ∀ c ∈ g.configs, Present T (c.path ++ [c.name])
  bindingPaths : ∀ c ∈ g.configs, ∀ b ∈ c.bindings, Present T (b.path ++ [b.name])

/-- A state of which every gadget is well formed. -/
structure StateWellFormed (T : Tree) (s : State) : Prop where
  gadgets : Increasing (s.gadgets.map Gadget.name)
  each : ∀ g ∈ s.gadgets, GadgetWellFormed T g

/-- `usbg_init` fails, or returns a well-formed state; it does nothing without a meaning. -/
structure InitWellFormed (M : Machine) (cfg : CStr) (w : World Fs) : Prop where
  ends : Ends (fun s _ => StateWellFormed w.tree s) (fun _ _ => True) False
    (usbgInit M.kernel cfg w)

/-! ## What follows from the description -/

variable {T : Tree} {cfg : CStr} {lo hi : Addr}

/-- A name in a directory is not empty. -/
lemma ConfigfsTree.name_ne (h : ConfigfsTree T cfg) {p : Path} (hp : p ≠ []) {name : CStr}
    {n : Node CStr CStr} (hn : T.get (p ++ [name]) = some n) : name ≠ [] := by
  refine h.named _ (FileTree.get_eq_some.mp hn) name ?_
  cases p with
  | nil => exact absurd rfl hp
  | cons a p => simp

/-- The entry of a listing is at its path. -/
lemma get_of_mem_listing {p : Path} (hp : p.Clean) {name : CStr} {sel : Dirent → Bool}
    (h : name ∈ listing T p.resolve sel) (hne : name ≠ []) :
    ∃ n, T.get (p ++ [name]).resolve = some n ∧ sel ⟨name, n.isLink⟩ = true := by
  rw [hp.2] at h
  rw [(hp.append (q := [name]) (by simpa using hne)).2]
  exact mem_listing.mp h

/-- What is in a directory without files is a directory or a link. -/
lemma present_of_mem_listing {p : Path} (hp : p.Clean) {name : CStr} {sel : Dirent → Bool}
    (h : name ∈ listing T p.resolve sel) (hne : name ≠ [])
    (hfile : ∀ e ∈ T.entries, e.2.isFile → e.1.dropLast ≠ p) :
    Present T (p ++ [name]) := by
  obtain ⟨n, hn, -⟩ := get_of_mem_listing hp h hne
  refine ⟨n, hn, ?_⟩
  rw [(hp.append (q := [name]) (by simpa using hne)).2] at hn
  cases n with
  | dir _ => exact .inl rfl
  | file content =>
    exact absurd List.dropLast_concat (hfile _ (FileTree.get_eq_some.mp hn) rfl)
  | link _ _ => exact .inr rfl

/-- In a configfs tree every name of a listing below the mount point is there. -/
lemma ConfigfsTree.mem_listing (h : ConfigfsTree T cfg) {p : Path} (hp : p.Clean) {name : CStr}
    {sel : Dirent → Bool} (hname : name ∈ listing T p.resolve sel) : name ≠ [] := by
  rw [hp.2] at hname
  obtain ⟨n, hn, -⟩ := Machine.mem_listing.mp hname
  exact h.name_ne hp.1 hn

/-- The name of a configuration is none that every directory has. -/
lemma fileSelect_configName {label : CStr} {id : ℤ} (h : label ≠ []) (isLink : Bool) :
    fileSelect ⟨configName label id, isLink⟩ = true := by
  obtain ⟨a, label, rfl⟩ := List.exists_cons_of_ne_nil h
  have hlength : 3 ≤ (configName (a :: label) id).length := by
    have hpos : 0 < (printDec id).length := by
      rw [List.length_pos_iff]
      cases id with
      | ofNat n => exact (printDec_natCast n).symm ▸ Nat.toDigits_ne_nil
      | negSucc n => simp [printDec]
    rw [configName, List.length_append, List.length_cons, List.length_cons]
    omega
  have hne : ∀ name : CStr, name.length < 3 → configName (a :: label) id ≠ name := by
    rintro name hshort rfl
    omega
  simp [fileSelect, hne ['.'] (by simp), hne ['.', '.'] (by simp)]

/-- Neither is a name with a number. -/
lemma fileSelect_of_numbered {name : CStr} (h : Numbered name) (isLink : Bool) : fileSelect ⟨name, isLink⟩ = true := by
  have hne : ∀ dots ∈ [".".toList, "..".toList], name ≠ dots := by
    rintro dots hdots rfl
    have hnot : ∀ dots ∈ [".".toList, "..".toList], ¬ Numbered dots := by decide
    exact hnot _ hdots h
  simp [fileSelect, hne ['.'] (by simp), hne ['.', '.'] (by simp)]

/-- The directory that was read for a configuration is among those of its gadget. -/
lemma ParsedConfig.mem_listing {cpath : Path} (hclean : cpath.Clean) {fs : List Func} {name : CStr} {c : Config}
    (h : ParsedConfig T cpath fs name c) : c.name ∈ listing T cpath.resolve fileSelect := by
  obtain ⟨b, hb⟩ := FileTree.isDir_iff.mp h.dir
  have hne : c.name ≠ [] := by simp [h.name_eq, configName]
  have hdir : c.dir.resolve = cpath ++ [c.name] := by
    rw [Config.dir, h.path]
    exact (hclean.append (by simpa using hne)).2
  rw [hdir] at hb
  rw [hclean.2]
  refine Machine.mem_listing.mpr ⟨_, hb, ?_⟩
  rw [h.name_eq]
  exact fileSelect_configName (usbgSplitConfigLabelId_eq_ok h.split).2.1 _

/-- Its name stands for the same label and number. -/
lemma ParsedConfig.split_name {cpath : Path} {fs : List Func} {name : CStr} {c : Config}
    (h : ParsedConfig T cpath fs name c) : usbgSplitConfigLabelId c.name = usbgSplitConfigLabelId name := by
  obtain ⟨hlabel, hid, hid'⟩ := (usbgSplitConfigLabelId_eq_ok h.split).2
  rw [h.split, h.name_eq, usbgSplitConfigLabelId_configName hlabel hid hid']

/-- A configuration that was read has the name of its directory. -/
lemma ParsedConfig.name_eq_of_apart {g : CStr} (hapart : ConfigsApart T cfg)
    (hg : g ∈ listing T (Path.resolve [cfg, gadgetsDir]) fileSelect)
    (hclean : Path.Clean [cfg, gadgetsDir, g, configsDir]) {fs : List Func} {name : CStr} {c : Config}
    (h : ParsedConfig T [cfg, gadgetsDir, g, configsDir] fs name c)
    (hname : name ∈ listing T (Path.resolve [cfg, gadgetsDir, g, configsDir]) fileSelect) : c.name = name :=
  hapart g hg c.name (h.mem_listing hclean) ⟨c.label, c.id, h.split_name.trans h.split, h.id_ne⟩ name hname
    (by rw [h.split_name])

lemma clean_gadgetsPath (cfg : CStr) : Path.Clean [cfg, gadgetsDir] :=
  ⟨List.cons_ne_nil _ _, by simp [Path.resolve]⟩

/-- Every configuration was read from a directory of the listing. -/
lemma ParsedGadget.config {g : Gadget} (h : ParsedGadget T lo hi g) {c : Config}
    (hc : c ∈ g.configs) :
    ∃ name ∈ listing T (g.path ++ [g.name, configsDir]).resolve fileSelect,
      ParsedConfig T (g.path ++ [g.name, configsDir]) g.functions name c := by
  obtain ⟨name, hname, hp⟩ := exists_of_forall₂ h.configs hc
  exact ⟨name, (List.mem_filter.mp hname).1, hp⟩

/-- A gadget that was read is well formed. -/
lemma ParsedGadget.wellFormed (htree : ConfigfsTree T cfg) (hapart : ConfigsApart T cfg) {g : Gadget}
    (hg : ParsedGadget T lo hi g) (hpath : g.path = [cfg, gadgetsDir])
    (hname : g.name ∈ listing T (Path.resolve [cfg, gadgetsDir]) fileSelect) :
    GadgetWellFormed T g := by
  have hclean := clean_gadgetsPath cfg
  have hgname : g.name ≠ [] := htree.mem_listing hclean hname
  have hsub : ∀ sub, sub ≠ [] → (g.path ++ [g.name, sub]).Clean := by
    intro sub hs
    rw [hpath]
    exact hclean.append (by simp [hgname, hs])
  have hfclean := hsub functionsDir functionsDir_ne_nil
  have hcclean := hsub configsDir configsDir_ne_nil
  have hcdir : ∀ c ∈ g.configs, c.dir.Clean := by
    intro c hc
    obtain ⟨name, -, hp⟩ := hg.config hc
    rw [Config.dir, hp.path]
    exact hcclean.append (by simp [hp.name_eq, configName])
  refine ⟨?_, ?_, ?_, ?_, ?_, ?_, ?_, ?_, ?_, ?_⟩
  · rw [map_eq_of_forall₂ hg.functions fun _ _ _ h => h.name_eq]
    exact listing_pairwise _ _ _
  · -- the name is built anew from label and number, so it is that of the directory only where no two decode alike
    have hnames : g.configs.map Config.name =
        (listing T (g.path ++ [g.name, configsDir]).resolve fileSelect).filter (Numbered ·) := by
      have hconfigs := hg.configs
      rw [hpath] at hconfigs hcclean ⊢
      exact map_eq_of_forall₂ hconfigs fun name hmem c h =>
        h.name_eq_of_apart hapart hname hcclean (List.mem_filter.mp hmem).1
    rw [hnames]
    exact (listing_pairwise _ _ _).filter _
  · intro c hc
    obtain ⟨name, -, hp⟩ := hg.config hc
    rw [map_eq_of_forall₂ hp.bindings fun _ _ _ h => h.name_eq]
    exact listing_pairwise _ _ _
  · intro c hc
    obtain ⟨name, -, hp⟩ := hg.config hc
    -- the split accepts 0, but `usbg_parse_config` skips such a directory
    obtain ⟨-, -, h0, h255⟩ := usbgSplitConfigLabelId_eq_ok hp.split
    have := hp.id_ne
    omega
  · intro c hc b hb
    obtain ⟨name, -, hp⟩ := hg.config hc
    obtain ⟨link, -, hbp⟩ := exists_of_forall₂ hp.bindings hb
    obtain ⟨f, hf, ha, -⟩ := hbp.target
    exact ⟨f, hf, ha⟩
  · intro a ha
    have ho := hg.osDesc
    rw [ParsedOsDesc] at ho
    split at ho
    · rw [ha] at ho
      cases ho
    · obtain ⟨part, label, id, -, -, ⟨-, ho⟩ | ⟨c, hc, -, -, ho⟩⟩ := ho
      · rw [ha] at ho
        cases ho
      · rw [ha] at ho
        exact ⟨c, hc, (Option.some.inj ho).symm⟩
  · rw [hpath]
    exact present_of_mem_listing hclean hname hgname fun e he hfile =>
      (htree.files e he hfile).1
  · intro f hf
    obtain ⟨name, hname, hp⟩ := exists_of_forall₂ hg.functions hf
    -- a plain file would be listed too, but there is none among the functions
    rw [hp.path, hp.name_eq]
    refine present_of_mem_listing hfclean hname (htree.mem_listing hfclean hname) ?_
    intro e he hfile hdir
    rw [hpath] at hdir
    refine (htree.files e he hfile).2 g.name (List.dropLast_subset _ ?_) hdir
    rw [hdir]
    simp
  · intro c hc
    obtain ⟨name, -, hp⟩ := hg.config hc
    obtain ⟨b, hb⟩ := FileTree.isDir_iff.mp hp.dir
    exact ⟨_, hb, .inl rfl⟩
  · intro c hc b hb
    obtain ⟨name, -, hp⟩ := hg.config hc
    obtain ⟨link, hlink, hbp⟩ := exists_of_forall₂ hp.bindings hb
    rw [hbp.path, hbp.name_eq]
    have hne := htree.mem_listing (hcdir c hc) hlink
    obtain ⟨n, hn, hsel⟩ := get_of_mem_listing (hcdir c hc) hlink hne
    exact ⟨n, hn, .inr hsel⟩

lemma initWellFormed_of_apart {M : Machine} {w : World Fs} (htree : ConfigfsTree w.tree cfg)
    (hslash : ¬ LinkWithoutSlash w.tree cfg) (hapart : ConfigsApart w.tree cfg) : InitWellFormed M cfg w := by
  refine ⟨Ends.mono_undef (usbgInit_ends cfg) ?_ (fun _ _ _ => trivial) hslash⟩
  rintro s w' ⟨-, hpath, h⟩
  have hgadgets := h.gadgets
  rw [hpath] at hgadgets
  refine ⟨?_, fun g hg => ?_⟩
  · rw [map_eq_of_forall₂ hgadgets fun _ _ _ h => h.1]
    exact listing_pairwise _ _ _
  · obtain ⟨name, hname, rfl, hp, hparsed⟩ := exists_of_forall₂ hgadgets hg
    exact hparsed.wellFormed htree hapart hp hname

/-! ## What follows from a well-formed state -/

lemma LastPart.not_slashless {p : Path} {part : CStr} (h : LastPart T p part) : ¬ Slashless T p := by
  rintro ⟨text, target, hget, hno⟩
  obtain ⟨text', target', pre, hget', hcut⟩ := h
  rw [hget, Option.some.injEq, Node.link.injEq] at hget'
  rw [← hget'.1, cutLast_eq_none.mpr hno] at hcut
  cases hcut

/-- The links of a gadget that was read have slashes. -/
lemma ParsedGadget.not_slashless {g : Gadget} (h : ParsedGadget T lo hi g) : ¬ GadgetSlashless T g.dir := by
  have hdir : ∀ sub, g.dir ++ [sub] = g.path ++ [g.name, sub] := fun sub => by simp [Gadget.dir]
  rintro (⟨name, hname, label, id, hsplit, hid, link, hlink, hno⟩ | ⟨link, hlink, hno⟩)
  · rw [hdir] at hname hlink hno
    have hmem : name ∈ (listing T (g.path ++ [g.name, configsDir]).resolve fileSelect).filter (Numbered ·) :=
      List.mem_filter.mpr ⟨hname, by simpa using ⟨label, id, hsplit, hid⟩⟩
    obtain ⟨c, -, hc⟩ := exists_of_forall₂' h.configs hmem
    have hcdir : c.dir = g.path ++ [g.name, configsDir] ++ [configName label id] := by
      obtain ⟨rfl, rfl⟩ := Prod.mk.inj (Except.ok.inj (hsplit.symm.trans hc.split))
      rw [Config.dir, hc.path, hc.name_eq]
    rw [← hcdir] at hlink hno
    obtain ⟨b, -, hb⟩ := exists_of_forall₂' hc.bindings hlink
    obtain ⟨f, -, -, hpart⟩ := hb.target
    exact hpart.not_slashless hno
  · rw [hdir] at hlink hno
    have ho := h.osDesc
    rw [ParsedOsDesc] at ho
    cases hl : listing T (g.path ++ [g.name, osDescDir]).resolve bindingsSelect with
    | nil =>
      rw [hl] at hlink
      cases hlink
    | cons first rest =>
      rw [hl] at hlink ho
      obtain rfl : first = link := by simpa using hlink
      obtain ⟨part, -, -, hpart, -⟩ := ho
      exact hpart.not_slashless hno

/-- The name under which a directory is kept as a configuration. -/
def keptName (name : CStr) : CStr :=
  match usbgSplitConfigLabelId name with
  | .ok (label, id) => configName label id
  | .error _ => name

lemma ParsedConfig.keptName_eq {cpath : Path} {fs : List Func} {name : CStr} {c : Config}
    (h : ParsedConfig T cpath fs name c) : c.name = keptName name := by
  rw [keptName, h.split]
  exact h.name_eq

/-- The configurations of a gadget with different names were read from directories apart. -/
lemma ParsedGadget.apart {g : Gadget} (h : ParsedGadget T lo hi g) (hinc : Increasing (g.configs.map Config.name))
    {name name' : CStr} (hname : name ∈ listing T (g.path ++ [g.name, configsDir]).resolve fileSelect)
    (hnum : Numbered name) (hname' : name' ∈ listing T (g.path ++ [g.name, configsDir]).resolve fileSelect)
    (hsame : (usbgSplitConfigLabelId name).toOption = (usbgSplitConfigLabelId name').toOption) : name = name' := by
  obtain ⟨label, id, hsplit, hid⟩ := hnum
  have hsplit' : usbgSplitConfigLabelId name' = .ok (label, id) := by
    rw [hsplit] at hsame
    cases h' : usbgSplitConfigLabelId name' with
    | error e =>
      rw [h'] at hsame
      cases hsame
    | ok p =>
      rw [h'] at hsame
      exact congrArg _ (Option.some.inj hsame).symm
  have hmem : ∀ x, x ∈ listing T (g.path ++ [g.name, configsDir]).resolve fileSelect →
      usbgSplitConfigLabelId x = .ok (label, id) →
        x ∈ (listing T (g.path ++ [g.name, configsDir]).resolve fileSelect).filter (Numbered ·) := by
    intro x hx hsplit
    exact List.mem_filter.mpr ⟨hx, decide_eq_true ⟨label, id, hsplit, hid⟩⟩
  have hkeys : g.configs.map Config.name =
      ((listing T (g.path ++ [g.name, configsDir]).resolve fileSelect).filter (Numbered ·)).map keptName :=
    map_eq_of_forall₂ (R := fun x c => c.name = x) (List.forall₂_map_left_iff.mpr
      (h.configs.imp fun _ _ hc => hc.keptName_eq)) fun _ _ _ h => h
  have hnodup : (g.configs.map Config.name).Nodup := hinc.imp ne_of_lt
  rw [hkeys] at hnodup
  refine List.inj_on_of_nodup_map hnodup (hmem name hname hsplit) (hmem name' hname' hsplit') ?_
  rw [keptName, keptName, hsplit, hsplit']

/-- A run that comes to a well-formed state has read only links with slashes, and configurations apart. -/
lemma InitWellFormed.apart {M : Machine} {w : World Fs} (h : InitWellFormed M cfg w)
    (hends : ∀ e, (usbgInit M.kernel cfg w).1 ≠ .fail e) :
    ¬ LinkWithoutSlash w.tree cfg ∧ ConfigsApart w.tree cfg := by
  have hwell := h.ends
  have hparsed := usbgInit_ends (M := M) (w := w) cfg
  rcases hrun : usbgInit M.kernel cfg w with ⟨s | e | _, w'⟩
  · rw [hrun] at hwell hparsed
    obtain ⟨-, hpath, hs⟩ := hparsed
    have hgadgets := hs.gadgets
    rw [hpath] at hgadgets
    have hread : ∀ name ∈ listing w.tree (Path.resolve [cfg, gadgetsDir]) fileSelect, ∃ g ∈ s.gadgets,
        g.name = name ∧ g.path = [cfg, gadgetsDir] ∧ ParsedGadget w.tree w.next w'.next g :=
      fun name hname => exists_of_forall₂' hgadgets hname
    constructor
    · rintro ⟨name, hname, hno⟩
      obtain ⟨g, -, rfl, hp, hg⟩ := hread name hname
      refine hg.not_slashless ?_
      rw [Gadget.dir, hp]
      exact hno
    · intro name hname conf hconf hnum conf' hconf' hsame
      obtain ⟨g, hmem, rfl, hp, hg⟩ := hread name hname
      refine hg.apart (StateWellFormed.each hwell g hmem).configs ?_ hnum ?_ hsame
      · rw [hp]
        exact hconf
      · rw [hp]
        exact hconf'
  · exact absurd (congrArg Prod.fst hrun) (hends e)
  · rw [hrun] at hwell
    exact hwell.elim

/-- In every configfs tree whose links have slashes and whose configurations are apart, whatever
calls the kernel refuses, `usbg_init` has a meaning and returns only well-formed states; and where it
does not return an error, only in such a tree. -/
theorem usbgInit_wellFormed_iff (M : Machine) (cfg : CStr) (w : World Fs) (htree : ConfigfsTree w.tree cfg) :
    (¬ LinkWithoutSlash w.tree cfg ∧ ConfigsApart w.tree cfg → InitWellFormed M cfg w) ∧
      ((∀ e, (usbgInit M.kernel cfg w).1 ≠ .fail e) → InitWellFormed M cfg w →
        ¬ LinkWithoutSlash w.tree cfg ∧ ConfigsApart w.tree cfg) :=
  ⟨fun h => initWellFormed_of_apart htree h.1 h.2, fun hends h => h.apart hends⟩

/-! ### Examples -/

/-- A tree with one gadget, which has one function and one configuration. -/
def smallTree (more : List (Path × Node CStr CStr)) : Tree :=
  FileTree.addAll .empty ([
    (["/c".toList, gadgetsDir], .dir false),
    (["/c".toList, gadgetsDir, "g".toList], .dir true),
    (["/c".toList, gadgetsDir, "g".toList, udcFile], .file []),
    (["/c".toList, gadgetsDir, "g".toList, functionsDir], .dir false),
    (["/c".toList, gadgetsDir, "g".toList, functionsDir, "acm.0".toList], .dir true),
    (["/c".toList, gadgetsDir, "g".toList, configsDir], .dir false),
    (["/c".toList, gadgetsDir, "g".toList, configsDir, "a.1".toList], .dir true),
    (["/c".toList, gadgetsDir, "g".toList, osDescDir], .dir false)] ++ more)

/-- A link to the function, with the given text. -/
def linkWith (text : CStr) : Path × Node CStr CStr :=
  (["/c".toList, gadgetsDir, "g".toList, configsDir, "a.1".toList, "l".toList],
    .link text ["/c".toList, gadgetsDir, "g".toList, functionsDir, "acm.0".toList])

/-- A directory of a configuration. -/
def numberedDir (name : CStr) : Path × Node CStr CStr :=
  (["/c".toList, gadgetsDir, "g".toList, configsDir, name], .dir true)

/-- The tree with a link as the kernel makes it. -/
def usualTree : Tree := smallTree [linkWith "../../functions/acm.0".toList]

/-- A tree with a link whose text has no slash. -/
def noSlashTree : Tree := smallTree [linkWith "acm.0".toList]

/-- A tree with two directories that the library takes for the configuration `a` with the number 10.  The kernel
takes the numbers in their names for 8 and 10. -/
def twiceTree : Tree := smallTree [numberedDir "a.010".toList, numberedDir "a.10".toList]

lemma configfsTree_usualTree : ConfigfsTree usualTree "/c".toList where
  named := by decide +kernel
  files := by decide +kernel

lemma linksHaveSlash_usualTree : LinksHaveSlash usualTree := by
  decide +kernel

lemma configsApart_usualTree : ConfigsApart usualTree "/c".toList := by
  decide +kernel

/-- The tree with the usual link is read as it should be. -/
theorem usbgInit_wellFormed_usualTree : InitWellFormed willing "/c".toList (worldOf usualTree) :=
  (usbgInit_wellFormed_iff willing "/c".toList (worldOf usualTree)
    (by rw [tree_worldOf]; exact configfsTree_usualTree)).1
      (by rw [tree_worldOf]; exact ⟨linksHaveSlash_usualTree.not_linkWithoutSlash, configsApart_usualTree⟩)

/-- How `usbg_init` ends on a tree: with the names of the configurations of every gadget. -/
def initConfigs (T : Tree) : Outcome UsbgError (List (List CStr)) :=
  match (usbgInit willing.kernel "/c".toList (worldOf T)).1 with
  | .ok s => .ok (s.gadgets.map fun g => g.configs.map Config.name)
  | .fail e => .fail e
  | .undef => .undef

lemma InitWellFormed.initConfigs (h : InitWellFormed willing "/c".toList (worldOf T)) :
    initConfigs T ≠ .undef ∧ ∀ l, initConfigs T = .ok l → ∀ names ∈ l, Increasing names := by
  have hends := h.ends
  rw [Libusbgx.initConfigs]
  rcases hr : usbgInit willing.kernel "/c".toList (worldOf T) with ⟨s | e | _, w'⟩
  · rw [hr] at hends
    refine ⟨fun h => (by cases h), ?_⟩
    rintro _ ⟨⟩ names hnames
    obtain ⟨g, hg, rfl⟩ := List.mem_map.mp hnames
    exact (StateWellFormed.each hends g hg).configs
  · exact ⟨fun h => (by cases h), fun l h => (by cases h)⟩
  · rw [hr] at hends
    exact hends.elim

/-- A link without a slash, and two directories for one configuration, are each enough for
`usbg_init` not to keep its promise. -/
theorem usbgInit_wellFormed_fails :
    (ConfigfsTree noSlashTree "/c".toList ∧ ConfigsApart noSlashTree "/c".toList ∧
      ¬ InitWellFormed willing "/c".toList (worldOf noSlashTree)) ∧
    ConfigfsTree twiceTree "/c".toList ∧ LinksHaveSlash twiceTree ∧
      ¬ InitWellFormed willing "/c".toList (worldOf twiceTree) := by
  refine ⟨⟨⟨?_, ?_⟩, ?_, fun h => h.initConfigs.1 ?_⟩, ⟨?_, ?_⟩, ?_, fun h => ?_⟩
  · decide +kernel
  · decide +kernel
  · decide +kernel
  · decide +kernel
  · decide +kernel
  · decide +kernel
  · decide +kernel
  · have hl : initConfigs twiceTree = .ok [["a.10".toList, "a.1".toList, "a.10".toList]] := by decide +kernel
    have hinc := h.initConfigs.2 _ hl _ (List.mem_singleton_self _)
    have hlt := (List.pairwise_cons.mp hinc).1 "a.10".toList (by simp)
    exact lt_irrefl _ hlt

end Libusbgx
