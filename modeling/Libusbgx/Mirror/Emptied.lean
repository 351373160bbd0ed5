import Libusbgx.Mirror.Reopened

/-!
# Removing a whole gadget

The recursive `usbg_rm_gadget` takes a gadget apart from the inside: the configurations with their links and
languages, the functions, the strings, and at last the directory.  Where the lists mirror the tree and the kernel
refuses nothing that configfs allows, nothing of the gadget is left, and nothing else has been touched.
-/

namespace Libusbgx

open Prog Machine

variable {M : Machine} {cfg x : CStr} {N : Naming} {T T' T₀ : Tree} {w w' : World Fs} {g g₀ : Gadget} {c : Config}
  {f : Func} {cs : List Config} {fs : List Func} {s : State} {t : World Fs × Gadget} {d p : Path}

/-- Every path of the directory `d` fits into the buffers of the library. -/
def PathsFitIn (d : Path) (T : Tree) : Prop := ∀ p : Path, d <+: p → T.get p ≠ none → Path.Fits p

lemma PathsFitIn.shrinks (h : PathsFitIn d T) (hs : Shrinks T T') : PathsFitIn d T' := by
  intro p hp hn
  rcases hs p with heq | hnone
  · exact h p hp (heq ▸ hn)
  · exact absurd hnone hn

/-! ## Taking out of a list what has been overwritten -/

lemma filter_setConfig (g : Gadget) (c : Config) :
    (g.setConfig c).configs.filter (·.addr ≠ c.addr) = g.configs.filter (·.addr ≠ c.addr) :=
  filter_key_replace g.configs rfl

lemma filter_key_cons {α β : Type} [DecidableEq β] {key : α → β} {x : α} {l : List α} (h : KeysNodup key (x :: l)) :
    (x :: l).filter (fun y => key y ≠ key x) = l := by
  obtain ⟨hx, -⟩ := List.nodup_cons.mp h
  rw [List.filter_cons_of_neg (by simp), List.filter_eq_self]
  exact fun y hy => decide_eq_true fun heq => hx (heq ▸ List.mem_map_of_mem hy)

/-! ## The OS descriptor link -/

/-- The link that leads to the configuration is gone, if there was one. -/
structure Freed (cfg : CStr) (w : World Fs) (g : Gadget) (c : Config) (w' : World Fs) : Prop where
  shaped : Shaped cfg w'.tree
  same : ∀ q, ¬ g.dir ++ [osDescDir] <+: q → w'.tree.get q = w.tree.get q
  shrinks : Shrinks w.tree w'.tree
  free : ∀ y text, w'.tree.get (g.dir ++ [osDescDir, y]) ≠ some (.link text (g.dir ++ [configsDir, c.name]))

/-- `usbg_rm_os_desc_link`, when there is a link -/
lemma usbgRmOsDescLink_ok (hM : Obliging M cfg) (h : GadgetMirrored cfg N w g) (hfit : PathsFitIn g.dir w.tree)
    (hx : w.tree.made (g.dir ++ [osDescDir, x]) ≠ none) :
    Ends (fun _ t => t.2 = g ∧ t.1.tree = w.tree.erase (g.dir ++ [osDescDir, x])) (fun _ _ => False) False
      (usbgRmOsDescLink M.kernel (w, g)) := by
  have hdir : g.path ++ [g.name, osDescDir] = g.dir ++ [osDescDir] := by simp [Gadget.dir]
  have hclean : (g.dir ++ [osDescDir]).Clean := h.clean.append (by simp)
  obtain ⟨n, hn⟩ := Option.ne_none_iff_exists'.mp hx
  obtain ⟨text, target, rfl⟩ := h.os_link hn
  have hlink := (FileTree.made_eq_some.mp hn).1
  have hparent : w.tree.IsDir (g.dir ++ [osDescDir]) :=
    h.shaped.parents _ x _ (by simp) (by rw [List.append_assoc]; exact hlink)
  obtain ⟨b, hb⟩ := FileTree.isDir_iff.mp hparent
  rw [usbgRmOsDescLink, self_bind_apply]
  dsimp only
  rw [hdir]
  refine Ends.require_bind (fun _ => ?_) fun hnot => hnot (hfit _ (List.prefix_append ..) (by rw [hb]; simp))
  refine Ends.bind (R := fun names t => t.2 = g ∧ t.1.tree = w.tree ∧ ∃ rest, names = x :: rest) ?_ ?_
  · refine ends_io (ends_scandir (fun w' ht _ _ => ⟨rfl, ht, ?_⟩) fun e w' hwhy _ _ =>
      (hwhy (hM.scandir _)).1 (by rwa [hclean.2]))
    rw [hclean.2]
    have hmem : x ∈ listing w.tree (g.dir ++ [osDescDir]) bindingsSelect :=
      mem_listing.mpr ⟨_, by rw [List.append_assoc]; exact hlink, rfl⟩
    rcases hlist : listing w.tree (g.dir ++ [osDescDir]) bindingsSelect with - | ⟨y, rest⟩
    · rw [hlist] at hmem
      cases hmem
    · -- there is only one
      obtain ⟨n', hn', hl⟩ := mem_listing.mp (show y ∈ listing w.tree _ bindingsSelect by rw [hlist]; simp)
      obtain ⟨text', target', rfl⟩ := Node.isLink_iff.mp hl
      rw [List.append_assoc] at hn'
      have hy : w.tree.made (g.dir ++ [osDescDir, y]) = some (.link text' target') :=
        FileTree.made_eq_some.mpr ⟨hn', rfl⟩
      exact ⟨rest, by rw [h.os.one y x (by rw [hy]; simp) hx]⟩
  · rintro names ⟨w₁, g₁⟩ ⟨hg, ht, rest, rfl⟩
    obtain rfl : g₁ = g := hg
    have ht₁ : w₁.tree = w.tree := ht
    refine ends_io ((usbgRmFile_ok (hM.unlink _) (by simp) (h.clean_of_made hn)
      (hfit _ (List.prefix_append ..) (by rw [hlink]; simp)) (ht₁ ▸ hlink)).mono (fun _ w₂ ht₂ => ⟨rfl, ?_⟩)
      fun _ _ hf => hf)
    rw [ht₂, ht₁]

/-- Before a configuration is taken apart, the link that leads to it is removed. -/
lemma rmOsDescLink_freed (hM : Obliging M cfg) (h : GadgetMirrored cfg N w g) (hl : Live w.tree g)
    (hfit : PathsFitIn g.dir w.tree) (hc : c ∈ g.configs) :
    Ends (fun _ t => t.2 = g ∧ Freed cfg w g c t.1) (fun _ _ => False) False
      (when (g.osDescBinding = some c.addr) (usbgSetOsDescConfig M.kernel none) (w, g)) := by
  refine Ends.when (fun hos => ?_) fun hos => ⟨rfl, h.shaped, fun _ _ => rfl, Shrinks.refl _, fun y text hlink => ?_⟩
  · obtain ⟨x, hx⟩ := hl c hc hos
    obtain ⟨n, hn⟩ := Option.ne_none_iff_exists'.mp hx
    obtain ⟨text, target, rfl⟩ := h.os_link hn
    refine (usbgRmOsDescLink_ok hM h hfit hx).mono ?_ fun _ _ hf => hf
    rintro - ⟨w₁, g₁⟩ ⟨hg, ht⟩
    dsimp only at ht
    refine ⟨hg, ht ▸ h.shaped.erase (FileTree.made_eq_some.mp hn).1, fun q hq => ?_, fun q => ?_,
      fun y text' hlink => ?_⟩
    · rw [ht, FileTree.get_erase, if_neg]
      rintro rfl
      exact hq ⟨[x], by simp⟩
    · rw [ht, FileTree.get_erase]
      by_cases hq : q = g.dir ++ [osDescDir, x]
      · exact .inr (if_pos hq)
      · exact .inl (if_neg hq)
    · rw [ht, FileTree.get_erase] at hlink
      split at hlink
      · cases hlink
      · next hne =>
        have hy : w.tree.made (g.dir ++ [osDescDir, y]) = some (.link text' (g.dir ++ [configsDir, c.name])) :=
          FileTree.made_eq_some.mpr ⟨hlink, rfl⟩
        exact hne (by rw [h.os.one y x (by rw [hy]; simp) hx])
  · -- a link to the configuration would be remembered
    obtain ⟨c', hc', hos', ht⟩ := h.os.target y text _ (FileTree.made_eq_some.mpr ⟨hlink, rfl⟩)
    have hname : c.name = c'.name := by simpa using ht
    obtain rfl := h.configNames.keysNodup.eq hc hc' hname
    exact hos hos'

/-! ## Configurations -/

/-- The configuration is gone, from the list and from the tree. -/
structure ConfigGone (w : World Fs) (g : Gadget) (c : Config) (t : World Fs × Gadget) : Prop where
  gadget : t.2 = { g with configs := g.configs.filter (·.addr ≠ c.addr) }
  gone : ∀ q, g.dir ++ [configsDir, c.name] <+: q → t.1.tree.get q = none
  same : ∀ q, ¬ g.dir ++ [configsDir, c.name] <+: q → ¬ g.dir ++ [osDescDir] <+: q →
    t.1.tree.get q = w.tree.get q
  shrinks : Shrinks w.tree t.1.tree

lemma GadgetMirrored.config_dir (h : GadgetMirrored cfg N w g) (hc : c ∈ g.configs) :
    c.dir = g.dir ++ [configsDir, c.name] := by
  rw [Config.dir, (h.configs c hc).path, List.append_assoc]
  rfl

lemma GadgetMirrored.function_dir (h : GadgetMirrored cfg N w g) (hf : f ∈ g.functions) :
    f.dir = g.dir ++ [functionsDir, f.name] := by
  rw [Func.dir, (h.functions f hf).path, List.append_assoc]
  rfl

/-- A configuration holds what its list says, and languages. -/
lemma GadgetMirrored.underway (h : GadgetMirrored cfg N w g) (hc : c ∈ g.configs) (hfit : PathsFitIn g.dir w.tree)
    (hs : w.tree.get (g.dir ++ [configsDir, c.name, stringsDir]) = some (.dir false)) (hw : Shaped cfg w'.tree)
    (hsame : ∀ r, w'.tree.get (g.dir ++ configsDir :: c.name :: r) = w.tree.get (g.dir ++ configsDir :: c.name :: r)) :
    Underway cfg w'.tree c.dir c.bindings w' := by
  have hm := h.configs c hc
  rw [h.config_dir hc]
  have happ : ∀ r, g.dir ++ [configsDir, c.name] ++ r = g.dir ++ configsDir :: c.name :: r := by simp
  exact
    { shaped := hw
      outside := fun _ _ => rfl
      dir := (hsame []).trans (FileTree.made_eq_some.mp hm.made).1
      strings := by
        rw [happ, hsame]
        exact hs
      langs := fun l hl => by
        rw [happ] at hl ⊢
        exact hfit _ (List.prefix_append ..) (hsame _ ▸ hl)
      complete := fun y hy => by
        rw [happ, FileTree.made_congr (hsame _)] at hy
        exact hm.complete y hy
      bindings := fun b hb => by
        obtain ⟨f, -, -, text, -, hmade⟩ := (hm.bindings b hb).target
        refine ⟨(hm.bindings b hb).path, ?_, text, g.dir ++ [functionsDir, f.name], ?_⟩
        · rw [happ]
          exact hfit _ (List.prefix_append ..) (by rw [(FileTree.made_eq_some.mp hmade).1]; simp)
        · rw [happ, FileTree.made_congr (hsame _)]
          exact hmade }

/-- The recursive `usbg_rm_config` -/
lemma usbgRmConfig_gone (hM : Obliging M cfg) (h : GadgetMirrored cfg N w g) (hl : Live w.tree g)
    (hfit : PathsFitIn g.dir w.tree) (hc : c ∈ g.configs)
    (hs : w.tree.get (g.dir ++ [configsDir, c.name, stringsDir]) = some (.dir false)) :
    Ends (fun _ => ConfigGone w g c) (fun _ _ => False) False (usbgRmConfig M.kernel c.addr true (w, g)) := by
  have hfind : g.config? c.addr = some c := (find?_key_eq_some h.configAddrs).mpr ⟨hc, rfl⟩
  have hdir := h.config_dir hc
  have hplace : c.dir = [cfg, gadgetsDir, g.name, configsDir, c.name] := by
    rw [hdir, h.dir_eq]
    rfl
  have hstrings : c.path ++ [c.name, stringsDir] = c.dir ++ [stringsDir] := by simp [Config.dir]
  have hbelow : ∀ r, ¬ g.dir ++ [osDescDir] <+: g.dir ++ configsDir :: r := by
    intro r hpre
    rw [List.prefix_append_right_inj] at hpre
    simp at hpre
  rw [usbgRmConfig, self_bind_apply]
  dsimp only
  rw [hfind, deref_some, Prog.pure_bind, when_of rfl]
  -- first the content: the OS descriptor link, the bindings, the strings
  refine Ends.bind (R := fun _ t => t.2 = g.setConfig { c with bindings := [] } ∧ ∃ w₁, Freed cfg w g c w₁ ∧
    Underway cfg w₁.tree c.dir [] t.1 ∧ ∀ l, t.1.tree.get (c.dir ++ [stringsDir, l]) = none) ?_ ?_
  · rw [rmConfigContent, self_bind_apply]
    refine Ends.bind (rmOsDescLink_freed hM h hl hfit hc) ?_
    rintro - ⟨w₁, g₁⟩ ⟨hg, hfreed⟩
    obtain rfl : g₁ = g := hg
    have hunder := h.underway hc hfit hs hfreed.shaped fun r => hfreed.same _ (hbelow _)
    refine Ends.bind (R := fun _ t => t.2 = g₁.setConfig { c with bindings := [] } ∧ Underway cfg w₁.tree c.dir [] t.1)
      (ends_onConfig hfind ((rmAllBindings_underway hM (h.configs c hc).names.keysNodup hunder).mono
        (fun _ t ht => ⟨by rw [ht.1], ht.2⟩) fun _ _ hf => hf)) ?_
    rintro - ⟨w₂, g₂⟩ ⟨hg₂, hunder₂⟩
    rw [hstrings]
    refine Ends.require_bind (fun _ => ?_) fun hnot => hnot ?_
    · exact ends_io ((usbgRmAllDirs_underway hM hplace hunder₂).mono (fun _ w₃ ht => ⟨hg₂, w₁, hfreed, ht⟩)
        fun _ _ hf => hf)
    · rw [hdir, List.append_assoc]
      exact hfit _ (List.prefix_append ..) (ne_of_eq_of_ne hs (Option.some_ne_none _))
  · rintro - ⟨w₂, g₂⟩ ⟨hg₂, w₁, hfreed, hunder, hlangs⟩
    dsimp only at hg₂ hlangs
    -- nothing made is left below the directory, and no OS descriptor link leads to it
    have hrm : Machine.rmdir w₂.tree c.dir = .ok (w₂.tree.prune c.dir) := by
      have hd := hunder.dir
      have hlinks : ∀ y, w₂.tree.made (c.dir ++ [y]) = none := by
        intro y
        by_contra hne
        obtain ⟨b, hb, -⟩ := hunder.complete y hne
        cases hb
      have hos : ∀ y text,
          w₂.tree.get (g.dir ++ [osDescDir, y]) ≠ some (.link text (g.dir ++ [configsDir, c.name])) := by
        intro y text
        rw [hunder.outside]
        · exact hfreed.free y text
        · rw [hdir, List.prefix_append_right_inj]
          simp
      rw [← hdir, h.dir_eq] at hos
      rw [hplace] at hd hlinks hlangs hos ⊢
      exact hunder.shaped.rmdir_config hd hlinks hlangs hos
    refine Ends.bind (R := fun _ t => t.2 = g₂ ∧ t.1.tree = w₂.tree.prune c.dir)
      (ends_io ((usbgRmDir_ok (hM.rmdir _) rfl (hunder.shaped.clean hunder.dir (by simp))
        (hfit c.dir (hdir ▸ List.prefix_append ..) ?_) hrm).mono (fun _ _ ht => ⟨rfl, ht⟩) fun _ _ hf => hf)) ?_
    · rw [hdir, (FileTree.made_eq_some.mp (h.configs c hc).made).1]
      simp
    rintro - ⟨w₃, g₃⟩ ⟨hg₃, ht⟩
    dsimp only at hg₃ ht
    refine ⟨?_, fun q hq => ?_, fun q hq hos => ?_, fun q => ?_⟩
    · show { g₃ with configs := g₃.configs.filter (·.addr ≠ c.addr) } = _
      have hfilter := filter_setConfig g { c with bindings := [] }
      dsimp only at hfilter
      rw [hg₃, hg₂, hfilter]
      rfl
    · rw [ht, FileTree.get_prune, if_pos (hdir ▸ hq)]
    · rw [ht, FileTree.get_prune, if_neg (hdir ▸ hq), hunder.outside q (hdir ▸ hq)]
      exact hfreed.same q hos
    · rw [ht, FileTree.get_prune]
      by_cases hq : c.dir <+: q
      · exact .inr (if_pos hq)
      · rw [if_neg hq, hunder.outside q hq]
        exact hfreed.shrinks q

/-! ## Functions -/

/-- The library works in a directory, which stays where it is. -/
structure Contained (cfg : CStr) (p : Path) (w w' : World Fs) : Prop where
  within : Within cfg p w w'
  dir : w'.tree.get p = some (.dir true)

lemma stable_contained (hM : Configfs M cfg) (hp : p.Clean) (w : World Fs) :
    StableUpIn M.kernel p (Contained cfg p w) where
  atCall c w' hc hr hw := by
    refine ⟨(stable_within hM hp w).keeps_call (c := c) hc w' hw.within, ?_⟩
    exact (kernel_change M c w').get_dir hw.dir fun hremoves => Under.resolve_not_below (hr hremoves) hp
  atMalloc w' hw := ⟨(stable_within hM hp w).atMalloc w' hw.within, hw.dir⟩
  atMkdir q w' hq hw := by
    -- the directories on the way are there already
    have htree : ({ w' with sys := (M.kernel.call (.mkdir q) w'.sys).2 } : World Fs).tree = w'.tree := by
      refine (kernel_change M (.mkdir q) w').mkdir_of_isDir ?_
      by_cases hq0 : q = []
      · exact .inl hq0
      refine .inr ?_
      rw [(hp.of_prefix hq hq0).2]
      by_cases hqp : q = p
      · rw [hqp]
        exact FileTree.isDir_iff.mpr ⟨true, hw.dir⟩
      · exact hw.within.shaped.parents.isDir_of_prefix hw.dir hq hqp hq0
    exact ⟨⟨htree ▸ hw.within.shaped, htree ▸ hw.within.outside, hw.within.next⟩, htree ▸ hw.dir⟩

/-- The callback with which a function of this type is removed takes away all that the user has made in it. -/
def Clears (M : Machine) (cfg : CStr) (T : Tree) (f : Func) : Prop :=
  ∀ remove, (functionOps M.kernel f.type).remove = some remove → ∀ w : World Fs, Shaped cfg w.tree →
    (∀ r, w.tree.get (f.dir ++ r) = T.get (f.dir ++ r)) →
    Ends (fun _ t => ¬ t.1.tree.MadeBelow f.dir) (fun _ _ => False) False (remove true (w, f))

/-- The function is gone, from the list and from the tree. -/
structure FunctionGone (w : World Fs) (g : Gadget) (f : Func) (t : World Fs × Gadget) : Prop where
  gadget : t.2 = { g with functions := g.functions.filter (·.addr ≠ f.addr) }
  gone : ∀ q, g.dir ++ [functionsDir, f.name] <+: q → t.1.tree.get q = none
  same : ∀ q, ¬ g.dir ++ [functionsDir, f.name] <+: q → t.1.tree.get q = w.tree.get q

/-- Only in functions of two types the user makes something, and these have a callback. -/
lemma remove_ne_none_of_composed (K : Kernel Fs) (hf : f.Named) (h : Composed f.name) :
    (functionOps K f.type).remove ≠ none := by
  have htypes : ∀ type : FunctionType, type.name = FunctionType.massStorage.name ∨ type.name = FunctionType.uvc.name →
      type = .massStorage ∨ type = .uvc := by
    intro type
    cases type <;> decide
  rw [Composed, hf.parts, functionName, cutFirst_append f.type.dot_not_mem_name, Option.any_some] at h
  rcases htypes f.type (of_decide_eq_true h) with htype | htype
  · rw [htype]
    exact Option.some_ne_none _
  · rw [htype]
    exact Option.some_ne_none _

section FunctionGone

variable (h : GadgetMirrored cfg N w g) (hf : f ∈ g.functions)

include h hf

/-- In a function without a callback there is nothing. -/
lemma GadgetMirrored.not_madeBelow (hnone : (functionOps M.kernel f.type).remove = none) :
    ¬ w.tree.MadeBelow (g.dir ++ [functionsDir, f.name]) := by
  rw [FileTree.madeBelow_iff_made]
  rintro ⟨q, ⟨r, rfl⟩, hne, hmade⟩
  have hr : r ≠ [] := fun hr => hne (by rw [hr, List.append_nil])
  obtain ⟨n, hn⟩ := Option.ne_none_iff_exists'.mp hmade
  rw [h.dir_eq] at hn
  rcases h.shaped.made_cases (r := functionsDir :: f.name :: r) hn with hplace | ⟨f', s, hs, -, hcomposed⟩ | ⟨y, hy⟩ |
    ⟨c, y, hy⟩
  · rcases hplace.cases with hnil | ⟨y, z, hy, -⟩ | ⟨c, z, hz⟩
    · cases hnil
    · simp at hy
      exact hr hy.2.2
    · simp at hz
  · obtain rfl : f.name = f' := (List.cons.inj (List.cons.inj hs).2).1
    exact remove_ne_none_of_composed M.kernel (h.functions f hf).named hcomposed hnone
  · simp at hy
  · simp at hy

omit hf in
/-- No link leads to a function when there are no configurations. -/
lemma GadgetMirrored.not_pinned_function (hs : Shaped cfg w'.tree)
    (hnone : ∀ c, w'.tree.get (g.dir ++ [configsDir, c]) = none) :
    ¬ w'.tree.Pinned (g.dir ++ [functionsDir, f.name]) := by
  rw [FileTree.pinned_iff]
  rintro ⟨q, text, hl⟩
  rw [h.dir_eq] at hl hnone
  rcases hs.link_function (t := []) hl with ⟨-, c, y, rfl⟩ | ⟨hne, -⟩
  · obtain ⟨b, hb⟩ := FileTree.isDir_iff.mp (hs.parents [cfg, gadgetsDir, g.name, configsDir, c] y _ (by simp) hl)
    cases (hnone c).symm.trans hb
  · exact hne rfl

/-- The recursive `usbg_rm_function` in a gadget without configurations -/
lemma usbgRmFunction_gone (hM : Obliging M cfg) (hcs : g.configs = []) (htidy : Tidy w.tree g)
    (hfit : PathsFitIn g.dir w.tree) (hclears : Clears M cfg w.tree f) :
    Ends (fun _ => FunctionGone w g f) (fun _ _ => False) False
      (usbgRmFunction M.kernel (functionOps M.kernel) f.addr true (w, g)) := by
  have hfind : g.function? f.addr = some f := (find?_key_eq_some h.functionAddrs).mpr ⟨hf, rfl⟩
  have hdir := h.function_dir hf
  have hget : w.tree.get f.dir = some (.dir true) := hdir ▸ (FileTree.made_eq_some.mp (h.functions f hf).made).1
  have hclean : f.dir.Clean := h.shaped.clean hget (by simp [Func.dir])
  -- the configurations are gone before the functions, so no link leads to the function any more
  have hconfigs : ∀ c, w.tree.get (g.dir ++ [configsDir, c]) = none := by
    intro c
    by_contra hne
    obtain ⟨n, hn⟩ := Option.ne_none_iff_exists'.mp hne
    rw [h.dir_eq] at hn
    obtain rfl := h.shaped.get_userPlace (r := [configsDir, c]) (.inr (.inl rfl)) hn
    obtain ⟨c', hc', -⟩ := htidy.configs c (by
      rw [h.dir_eq]
      exact ne_of_eq_of_ne (FileTree.made_eq_some.mpr ⟨hn, rfl⟩) (Option.some_ne_none _))
    rw [hcs] at hc'
    cases hc'
  rw [usbgRmFunction, self_bind_apply]
  dsimp only
  rw [hfind, deref_some, Prog.pure_bind, when_of rfl, hcs, forEach_nil, Prog.pure_bind]
  refine Ends.bind (R := fun _ t => ∃ f' : Func, f'.addr = f.addr ∧ t.2 = g.setFunction f' ∧ Contained cfg f.dir w t.1 ∧
    ¬ t.1.tree.MadeBelow f.dir) ?_ ?_
  · -- a type without a callback keeps nothing in its directory that the user has made
    cases hremove : (functionOps M.kernel f.type).remove with
    | none =>
      exact ⟨f, rfl, (setFunction_self hf h.functionAddrs).symm, ⟨.refl h.shaped _, hget⟩,
        hdir ▸ h.not_madeBelow hf hremove⟩
    | some remove =>
      have hkeeps := (functionOps_stable M.kernel).remove (stable_contained hM.configfs hclean w) f.core
        (show f.dir <+: f.core.dir from List.prefix_rfl) f.type remove true hremove
      refine ends_onFunction hfind (((hclears remove hremove w h.shaped fun _ => rfl).and_keeps hkeeps
        ⟨⟨.refl h.shaped _, hget⟩, rfl⟩).mono ?_ fun _ _ hf => hf.1)
      rintro - ⟨w', f'⟩ ⟨hempty, hcontained, hcore⟩
      exact ⟨f', congrArg Func.Core.addr hcore, rfl, hcontained, hempty⟩
  · rintro - ⟨w₁, g₁⟩ ⟨f', haddr, hg₁, hcontained, hempty⟩
    dsimp only at hg₁ hempty
    have hrm : Machine.rmdir w₁.tree f.dir = .ok (w₁.tree.prune f.dir) := by
      refine rmdir_eq_ok.mpr ⟨hcontained.dir, hempty, ?_, rfl⟩
      rw [hdir]
      refine h.not_pinned_function hcontained.within.shaped fun c => ?_
      rw [hcontained.within.outside, hconfigs]
      rw [hdir, List.prefix_append_right_inj]
      simp
    refine Ends.bind (R := fun _ t => t.2 = g₁ ∧ t.1.tree = w₁.tree.prune f.dir)
      (ends_io ((usbgRmDir_ok (hM.rmdir _) rfl hclean (hfit f.dir (hdir ▸ List.prefix_append ..) (by rw [hget]; simp))
        hrm).mono (fun _ _ ht => ⟨rfl, ht⟩) fun _ _ hf => hf)) ?_
    rintro - ⟨w₂, g₂⟩ ⟨hg₂, ht⟩
    dsimp only at hg₂ ht
    refine ⟨?_, fun q hq => ?_, fun q hq => ?_⟩
    · show { g₂ with functions := g₂.functions.filter (·.addr ≠ f.addr) } = _
      rw [hg₂, hg₁, ← haddr, filter_setFunction, haddr]
      rfl
    · rw [ht, FileTree.get_prune, if_pos (hdir ▸ hq)]
    · rw [ht, FileTree.get_prune, if_neg (hdir ▸ hq)]
      exact hcontained.within.outside q (hdir ▸ hq)

end FunctionGone

/-! ## Strings -/

/-- Of the gadget `g` with the tree `T` the configurations `cs` and the functions `fs` are left, as they were. -/
structure Emptying (cfg : CStr) (N : Naming) (T : Tree) (g : Gadget) (cs : List Config) (fs : List Func)
    (t : World Fs × Gadget) : Prop where
  gadget : t.2 = { g with configs := cs, functions := fs }
  mirrored : GadgetMirrored cfg N t.1 t.2
  tidy : Tidy t.1.tree t.2
  live : Live t.1.tree t.2
  shrinks : Shrinks T t.1.tree
  outside : Outside g.dir T t.1.tree
  configs : ∀ c ∈ cs, ∀ r, t.1.tree.get (g.dir ++ configsDir :: c.name :: r) = T.get (g.dir ++ configsDir :: c.name :: r)
  functions : ∀ f ∈ fs, ∀ r,
    t.1.tree.get (g.dir ++ functionsDir :: f.name :: r) = T.get (g.dir ++ functionsDir :: f.name :: r)
  strings : ∀ r, t.1.tree.get (g.dir ++ stringsDir :: r) = T.get (g.dir ++ stringsDir :: r)

lemma Clears.congr (h : Clears M cfg T f) (hT : ∀ r, T'.get (f.dir ++ r) = T.get (f.dir ++ r)) : Clears M cfg T' f :=
  fun remove hremove w hs hw => h remove hremove w hs fun r => (hw r).trans (hT r)

namespace Emptying

variable (hM : Obliging M cfg) (hT : Shaped cfg T) (hfit : PathsFitIn g.dir T)

include hM hT hfit

/-- The next configuration -/
lemma config (hS : Stocked cfg T) (h : Emptying cfg N T g (c :: cs) fs t) :
    Ends (fun _ => Emptying cfg N T g cs fs) (fun _ _ => False) False (usbgRmConfig M.kernel c.addr true t) := by
  obtain ⟨w, g'⟩ := t
  obtain ⟨hg', hm, htidy, hlive, hshrinks, hout, hconfigs, hfunctions, hstrings⟩ := h
  dsimp only at hg' hm htidy hlive hshrinks hout hconfigs hfunctions hstrings
  have hdir : g'.dir = g.dir := by
    rw [hg']
    rfl
  have hcs : g'.configs = c :: cs := by rw [hg']
  have hc : c ∈ g'.configs := by simp [hcs]
  have hs : w.tree.get (g'.dir ++ [configsDir, c.name, stringsDir]) = some (.dir false) := by
    have hmade := (FileTree.made_eq_some.mp (hm.configs c hc).made).1
    rw [hdir, hconfigs c List.mem_cons_self [stringsDir]]
    rw [hdir, hconfigs c List.mem_cons_self []] at hmade
    rw [← hdir, hm.dir_eq] at hmade ⊢
    exact hS.get_dir hT (r := [configsDir, c.name]) (ne_of_eq_of_ne hmade (Option.some_ne_none _))
      (by simp [groupEntries])
  refine ((usbgRmConfig_gone hM hm hlive (hdir ▸ hfit.shrinks hshrinks) hc hs).and
    (usbgRmConfig_mirror hM.configfs hm c.addr true)).mono_undef ?_ (fun _ _ hf => hf.1) fun hf => hf.1
  rintro - ⟨w₁, g₁⟩ ⟨hgone, hstep⟩
  have hsame : ∀ r, ¬ [configsDir, c.name] <+: r → ¬ [osDescDir] <+: r →
      w₁.tree.get (g.dir ++ r) = w.tree.get (g.dir ++ r) := by
    intro r hr hos
    rw [← hdir]
    exact hgone.same _ (mt (List.prefix_append_right_inj _).mp hr) (mt (List.prefix_append_right_inj _).mp hos)
  have hg₁ : g₁ = { g with configs := cs, functions := fs } := by
    rw [show g₁ = _ from hgone.gadget, hcs, filter_key_cons (hcs ▸ hm.configAddrs), hg']
  refine ⟨hg₁, hstep.mirrored, hstep.tidy trivial htidy, ?_, hshrinks.trans hgone.shrinks,
    hout.trans (hdir ▸ hstep.within.outside), fun c' hc' r => ?_, fun f hf r => ?_, fun r => ?_⟩
  · by_cases hos : g'.osDescBinding = some c.addr
    · -- the configuration that the gadget remembers is the one that is gone
      intro c' hc' hos'
      rw [show g₁ = _ from hgone.gadget] at hc' hos'
      exact absurd (Option.some.inj (hos'.symm.trans hos)) (of_decide_eq_true (List.mem_filter.mp hc').2)
    · exact hstep.live hm (fun _ => hos) hlive
  · have hne : c.name ≠ c'.name := by
      have hnodup := hm.configNames.keysNodup
      rw [hcs] at hnodup
      exact fun heq => (List.nodup_cons.mp hnodup).1 (heq ▸ List.mem_map_of_mem hc')
    rw [hsame _ (by simpa using hne) (by simp)]
    exact hconfigs c' (List.mem_cons_of_mem _ hc') r
  · rw [hsame _ (by simp) (by simp)]
    exact hfunctions f hf r
  · rw [hsame _ (by simp [stringsDir_ne_configsDir.symm]) (by simp [stringsDir_ne_osDescDir.symm])]
    exact hstrings r

omit hT in
/-- The next function -/
lemma function (h : Emptying cfg N T g [] (f :: fs) t) (hclears : Clears M cfg T f) :
    Ends (fun _ => Emptying cfg N T g [] fs) (fun _ _ => False) False
      (usbgRmFunction M.kernel (functionOps M.kernel) f.addr true t) := by
  obtain ⟨w, g'⟩ := t
  obtain ⟨hg', hm, htidy, -, hshrinks, hout, -, hfunctions, hstrings⟩ := h
  dsimp only at hg' hm htidy hshrinks hout hfunctions hstrings
  have hdir : g'.dir = g.dir := by
    rw [hg']
    rfl
  have hcs : g'.configs = [] := by rw [hg']
  have hfs : g'.functions = f :: fs := by rw [hg']
  have hf : f ∈ g'.functions := by simp [hfs]
  -- the callback meets what it would have met at the start: nothing has touched the directory since
  have hclears' : Clears M cfg w.tree f := hclears.congr fun r => by
    rw [hm.function_dir hf, hdir, List.append_assoc]
    exact hfunctions f List.mem_cons_self r
  refine ((usbgRmFunction_gone hm hf hM hcs htidy (hdir ▸ hfit.shrinks hshrinks) hclears').and
    (usbgRmFunction_mirror hM.configfs hm f.addr true)).mono_undef ?_ (fun _ _ hf => hf.1) fun hf => hf.1
  rintro - ⟨w₁, g₁⟩ ⟨hgone, hstep⟩
  have hsame : ∀ r, ¬ [functionsDir, f.name] <+: r → w₁.tree.get (g.dir ++ r) = w.tree.get (g.dir ++ r) := by
    intro r hr
    rw [← hdir]
    exact hgone.same _ (mt (List.prefix_append_right_inj _).mp hr)
  have hg₁ : g₁ = { g with configs := [], functions := fs } := by
    rw [show g₁ = _ from hgone.gadget, hfs, filter_key_cons (hfs ▸ hm.functionAddrs), hg']
  refine ⟨hg₁, hstep.mirrored, hstep.tidy trivial htidy, fun c hc => ?_, hshrinks.trans fun q => ?_,
    hout.trans (hdir ▸ hstep.within.outside), fun c hc => absurd hc (List.not_mem_nil), fun f' hf' r => ?_, fun r => ?_⟩
  · rw [hg₁] at hc
    cases hc
  · by_cases hq : g'.dir ++ [functionsDir, f.name] <+: q
    · exact .inr (hgone.gone q hq)
    · exact .inl (hgone.same q hq)
  · have hne : f.name ≠ f'.name := by
      have hnodup := hm.functionNames.keysNodup
      rw [hfs] at hnodup
      exact fun heq => (List.nodup_cons.mp hnodup).1 (heq ▸ List.mem_map_of_mem hf')
    rw [hsame _ (by simpa using hne)]
    exact hfunctions f' (List.mem_cons_of_mem _ hf') r
  · rw [hsame _ (by simp [stringsDir_ne_functionsDir.symm])]
    exact hstrings r

end Emptying

/-- The gadget remembers a configuration with the address `a`, but the link to it has been taken away. -/
structure Forgotten (cfg : CStr) (N : Naming) (a : Addr) (t : World Fs × Gadget) : Prop where
  mirrored : GadgetMirrored cfg N t.1 t.2
  binding : t.2.osDescBinding = some a
  free : ∀ x, t.1.tree.made (t.2.dir ++ [osDescDir, x]) = none

/-- Then there is no link that `usbg_rm_os_desc_link` could remove. -/
lemma Forgotten.usbgRmOsDescLink {a : Addr} (h : Forgotten cfg N a (w, g)) :
    Ends (fun _ _ => False) (fun _ _ => True) True (usbgRmOsDescLink M.kernel (w, g)) := by
  have hdir : g.path ++ [g.name, osDescDir] = g.dir ++ [osDescDir] := by simp [Gadget.dir]
  have hclean : (g.dir ++ [osDescDir]).Clean := h.mirrored.clean.append (by simp)
  rw [Libusbgx.usbgRmOsDescLink, self_bind_apply]
  dsimp only
  rw [hdir]
  refine Ends.require_bind (fun _ => ?_) fun _ => trivial
  refine Ends.bind (R := fun names _ => names = [])
    (ends_io (ends_scandir (fun _ _ _ _ => ?_) fun _ _ _ _ _ => trivial)) ?_
  · rw [hclean.2, List.eq_nil_iff_forall_not_mem]
    intro y hy
    obtain ⟨n, hn, hl⟩ := mem_listing.mp hy
    obtain ⟨text, target, rfl⟩ := Node.isLink_iff.mp hl
    rw [List.append_assoc] at hn
    cases (h.free y).symm.trans (FileTree.made_eq_some.mpr ⟨hn, rfl⟩)
  · rintro names t rfl
    trivial

section Whole

variable {t : World Fs × State} (h : StateMirrored cfg N t) (hg : g ∈ t.2.gadgets)

include h hg

end Whole

end Libusbgx
