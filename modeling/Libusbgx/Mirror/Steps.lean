import Libusbgx.Mirror.Gadget

/-!
# Steps that keep the mirror

Every change that a call makes at a place goes with a change to the lists.  There is one lemma for each such
pair; the calls of the library are sequences of them, with work elsewhere in between.
-/

namespace Libusbgx

open Prog Machine

variable {M : Machine} {cfg : CStr} {N : Naming} {T T' : Tree} {w w' : World Fs} {g g' : Gadget} {d : Path}

/-- The OS descriptor link is as before, in the tree and in memory. -/
structure OsSame (T : Tree) (g : Gadget) (T' : Tree) (g' : Gadget) : Prop where
  made : ∀ x, T'.made (g.dir ++ [osDescDir, x]) = T.made (g.dir ++ [osDescDir, x])
  binding : g'.osDescBinding = g.osDescBinding

/-- What a call on a gadget does.  It keeps the mirror, and does not touch what is in no list; if `tidy` then it leaves
nothing behind, and if `same` then it does not touch the OS descriptor link. -/
structure MirrorStep (cfg : CStr) (N : Naming) (tidy same : Prop) (w : World Fs) (g : Gadget) (t : World Fs × Gadget) :
    Prop where
  mirrored : GadgetMirrored cfg N t.1 t.2
  within : Within cfg g.dir w t.1
  core : t.2.core = g.core
  configs : ∀ c ∈ t.2.configs, (∃ c' ∈ g.configs, c'.core = c.core) ∨ w.next ≤ c.addr
  tidy : tidy → Tidy w.tree g → Tidy t.1.tree t.2
  strays : Tidy t.1.tree t.2 → Tidy w.tree g
  os : same → OsSame w.tree g t.1.tree t.2

namespace MirrorStep

variable {tidy same tidy' same' : Prop} {t : World Fs × Gadget}

lemma dir (h : MirrorStep cfg N tidy same w g t) : t.2.dir = g.dir := by
  rw [Gadget.dir, Gadget.dir, show t.2.path = g.path from congrArg Gadget.Core.path h.core,
    show t.2.name = g.name from congrArg Gadget.Core.name h.core]

lemma weaken (h : MirrorStep cfg N tidy same w g t) (ht : tidy' → tidy) (hs : same' → same) :
    MirrorStep cfg N tidy' same' w g t :=
  { h with
    tidy := fun hp => h.tidy (ht hp)
    os := fun hp => h.os (hs hp) }

/-- One call after the other. -/
lemma trans (h : MirrorStep cfg N tidy same w g (w', g')) (h' : MirrorStep cfg N tidy' same' w' g' t) :
    MirrorStep cfg N (tidy ∧ tidy') (same ∧ same') w g t where
  mirrored := h'.mirrored
  within := h.within.trans (h.dir ▸ h'.within)
  core := h'.core.trans h.core
  configs c hc := by
    rcases h'.configs c hc with ⟨c', hc', he⟩ | hn
    · rcases h.configs c' hc' with ⟨c'', hc'', he'⟩ | hn
      · exact .inl ⟨c'', hc'', he'.trans he⟩
      · exact .inr (by rwa [← show c'.addr = c.addr from congrArg Config.Core.addr he])
    · exact .inr (h.within.next.trans hn)
  tidy hp ht := h'.tidy hp.2 (h.tidy hp.1 ht)
  strays ht := h.strays (h'.strays ht)
  os hp := by
    have ho := h.os hp.1
    have ho' := h'.os hp.2
    refine ⟨fun x => ?_, ho'.binding.trans ho.binding⟩
    have := ho'.made x
    rw [h.dir] at this
    exact this.trans (ho.made x)

/-- A step that leaves nothing behind and does not touch the link, whatever is asked for. -/
lemma any (h : MirrorStep cfg N True True w g t) : MirrorStep cfg N tidy same w g t :=
  h.weaken (fun _ => trivial) fun _ => trivial

/-- The same of both. -/
lemma seq (h : MirrorStep cfg N tidy same w g (w', g')) (h' : MirrorStep cfg N tidy same w' g' t) :
    MirrorStep cfg N tidy same w g t := (h.trans h').weaken (fun h => ⟨h, h⟩) fun h => ⟨h, h⟩

/-- The link is still there where it was. -/
lemma live (h : MirrorStep cfg N tidy same w g t) (hm : GadgetMirrored cfg N w g) (hs : same) (hl : Live w.tree g) :
    Live t.1.tree t.2 := by
  have ho := h.os hs
  intro c hc hos
  rw [ho.binding] at hos
  rw [h.dir]
  rcases h.configs c hc with ⟨c', hc', he⟩ | hn
  · obtain ⟨x, hx⟩ := hl c' hc' (by rwa [show c'.addr = c.addr from congrArg Config.Core.addr he])
    exact ⟨x, by rwa [ho.made]⟩
  · exact absurd (hm.freshOs c.addr hos) (not_lt.mpr hn)

end MirrorStep

/-! ## What stays -/

section Stays

variable {fs fs' : List Func} {f f' : Func} {c c' : Config}

lemma FuncMirrored.congr (h : FuncMirrored T d f) (hcore : f'.core = { f.core with label := f'.label })
    (hmade : T'.made (d ++ [functionsDir, f.name]) = T.made (d ++ [functionsDir, f.name])) : FuncMirrored T' d f' := by
  have hname : f'.name = f.name := congrArg Func.Core.name hcore
  have hinst : f'.inst = f.inst := congrArg Func.Core.inst hcore
  have htype : f'.type = f.type := congrArg Func.Core.type hcore
  refine ⟨(congrArg Func.Core.path hcore).trans h.path, ?_, ?_, ?_⟩
  · rw [hname, hmade]
    exact h.made
  · rw [hname, hinst, htype]
    exact h.named.parts
  · rw [hinst]
    exact h.named.inst

/-- The functions that the bindings of a configuration lead to are still there. -/
def TargetsStay (fs fs' : List Func) (c : Config) : Prop :=
  ∀ b ∈ c.bindings, ∀ f ∈ fs, f.addr = b.target → ∃ f' ∈ fs', f'.addr = f.addr ∧ f'.name = f.name

lemma TargetsStay.refl (fs : List Func) (c : Config) : TargetsStay fs fs c := fun _ _ f hf _ => ⟨f, hf, rfl, rfl⟩

lemma ConfigMirrored.congr (h : ConfigMirrored N T d fs c) (hfs : TargetsStay fs fs' c)
    (hmade : T'.made (d ++ [configsDir, c.name]) = T.made (d ++ [configsDir, c.name]))
    (hlinks : ∀ x, T'.made (d ++ [configsDir, c.name, x]) = T.made (d ++ [configsDir, c.name, x])) :
    ConfigMirrored N T' d fs' c :=
  { h with
    made := hmade.trans h.made
    bindings := fun b hb => by
      obtain ⟨hpath, hfits, f, hf, haddr, text, hlink, hb'⟩ := h.bindings b hb
      obtain ⟨f', hf', haddr', hname'⟩ := hfs b hb f hf haddr
      exact ⟨hpath, hfits, f', hf', haddr'.trans haddr, text, by rwa [hname'], by rw [hlinks, hname']; exact hb'⟩
    complete := fun x hx => h.complete x (by rwa [hlinks] at hx) }

lemma OsMirrored.congr (h : OsMirrored N T g) (hdir : g'.dir = g.dir) (ho : OsSame T g T' g')
    (hconfigs : ∀ c ∈ g.configs, g.osDescBinding = some c.addr →
      (∃ x, T.made (g.dir ++ [osDescDir, x]) ≠ none) → ∃ c' ∈ g'.configs, c'.addr = c.addr ∧ c'.name = c.name) :
    OsMirrored N T' g' := by
  refine ⟨fun x text t hl => ?_, fun x text t hl => ?_, fun x y hx hy => ?_, fun x hx => ?_⟩
  · rw [hdir, ho.made] at hl
    obtain ⟨c, hc, hos, ht⟩ := h.target x text t hl
    obtain ⟨c', hc', haddr, hname⟩ := hconfigs c hc hos ⟨x, by rw [hl]; simp⟩
    exact ⟨c', hc', by rw [ho.binding, hos, haddr], by rw [hdir, hname]; exact ht⟩
  · rw [hdir, ho.made] at hl
    exact h.link x text t hl
  · rw [hdir, ho.made] at hx hy
    exact h.one x y hx hy
  · rw [hdir, ho.made] at hx
    rw [hdir]
    exact h.fits x hx

end Stays

/-! ## Work elsewhere -/

namespace MirrorStep

variable {f f' : Func} {c c' : Config}

/-- Nothing has changed at the places of the objects in the lists, and there are no new links. -/
lemma of_untouched {r : Path} (h : GadgetMirrored cfg N w g) (hin : Within cfg g.dir w w')
    (hu : Untouched g.dir r w.tree w'.tree) (hf : ∀ f ∈ g.functions, [functionsDir, f.name] ≠ r)
    (hc : ∀ c ∈ g.configs, [configsDir, c.name] ≠ r) (hl : ∀ c y, [configsDir, c, y] ≠ r)
    (ho : ∀ y, [osDescDir, y] ≠ r) (hfree : ∀ k x, [k, x] = r → w.tree.made (g.dir ++ [k, x]) = none) :
    MirrorStep cfg N (∀ x, [functionsDir, x] ≠ r ∧ [configsDir, x] ≠ r) True w g (w', g) := by
  have hos : OsSame w.tree g w'.tree g := ⟨fun x => hu.os x (ho x), rfl⟩
  exact
    { mirrored :=
        { h with
          shaped := hin.shaped
          made := hu.dir.trans h.made
          functions := fun f hmem => (h.functions f hmem).congr rfl (hu.functions _ (hf f hmem))
          configs := fun c hmem => (h.configs c hmem).congr (.refl _ c) (hu.configs _ (hc c hmem)) fun x =>
            hu.links _ x (hl _ x)
          os := h.os.congr rfl hos fun c hmem _ _ => ⟨c, hmem, rfl, rfl⟩
          freshFunctions := fun f hmem => lt_of_lt_of_le (h.freshFunctions f hmem) hin.next
          freshConfigs := fun c hmem => lt_of_lt_of_le (h.freshConfigs c hmem) hin.next
          freshOs := fun a ha => lt_of_lt_of_le (h.freshOs a ha) hin.next }
      within := hin
      core := rfl
      configs := fun c hmem => .inl ⟨c, hmem, rfl⟩
      tidy := fun hr ht =>
        ⟨fun x hx => ht.functions x fun hn => hx ((hu.functions x (hr x).1).trans hn),
          fun x hx => ht.configs x fun hn => hx ((hu.configs x (hr x).2).trans hn)⟩
      strays := fun ht =>
        ⟨fun x hx => ht.functions x fun hn =>
            hx ((hu.functions x fun hr => hx (hfree _ _ hr)).symm.trans hn),
          fun x hx => ht.configs x fun hn => hx ((hu.configs x fun hr => hx (hfree _ _ hr)).symm.trans hn)⟩
      os := fun _ => hos }

/-- Nothing has changed at the places. -/
lemma of_samePlaces (h : GadgetMirrored cfg N w g) (hin : Within cfg g.dir w w') (hs : SamePlaces w.tree w'.tree) :
    MirrorStep cfg N True True w g (w', g) :=
  (of_untouched h hin (hs.untouched h.length_dir) (by simp) (by simp) (by simp) (by simp)
    (by simp)).weaken (fun _ => by simp) id

/-- Something has been made that is in no list. -/
lemma stray {k x : CStr} {o : Option (Node CStr CStr)} (h : GadgetMirrored cfg N w g) (hin : Within cfg g.dir w w')
    (hset : PlaceSet (g.dir ++ [k, x]) o w.tree w'.tree) (hk : k ≠ osDescDir)
    (hfree : w.tree.made (g.dir ++ [k, x]) = none) :
    MirrorStep cfg N False True w g (w', g) := by
  refine (of_untouched h hin (hset.untouched h.length_dir (List.cons_ne_nil _ _)) (fun f hf heq => ?_)
    (fun c hc heq => ?_)
    (by simp) (by simpa using fun heq => absurd heq.symm hk) (fun k' x' heq => heq ▸ hfree)).weaken False.elim id
  · obtain ⟨rfl, rfl⟩ : functionsDir = k ∧ f.name = x := by simpa using heq
    rw [(h.functions f hf).made] at hfree
    cases hfree
  · obtain ⟨rfl, rfl⟩ : configsDir = k ∧ c.name = x := by simpa using heq
    rw [(h.configs c hc).made] at hfree
    cases hfree

/-- Something that may have been taken away again. -/
lemma stray_or {k x : CStr} {o : Option (Node CStr CStr)} (h : GadgetMirrored cfg N w g) (hin : Within cfg g.dir w w')
    (hset : PlaceSet (g.dir ++ [k, x]) o w.tree w'.tree) (hk : k ≠ osDescDir)
    (hfree : w.tree.made (g.dir ++ [k, x]) = none) :
    MirrorStep cfg N (w'.tree.made (g.dir ++ [k, x]) = none) True w g (w', g) := by
  by_cases hgone : w'.tree.made (g.dir ++ [k, x]) = none
  · refine (of_samePlaces h hin fun q hq => ?_).any
    by_cases hqp : q = g.dir ++ [k, x]
    · rw [hqp, hgone, hfree]
    · exact hset.of_ne hq hqp
  · exact (stray h hin hset hk hfree).weaken hgone id

/-- A call that has failed has changed nothing. -/
lemma of_eq (h : GadgetMirrored cfg N w g) (ht : w'.tree = w.tree) (hn : w.next ≤ w'.next) :
    MirrorStep cfg N True True w g (w', g) :=
  of_samePlaces h (.of_eq h.shaped ht hn) (samePlaces_of_eq ht)

lemma refl (h : GadgetMirrored cfg N w g) : MirrorStep cfg N True True w g (w, g) := of_eq h rfl (le_refl _)

/-! ## Functions -/

/-- A new function. -/
lemma insertFunction (h : GadgetMirrored cfg N w g) (hin : Within cfg g.dir w w')
    (hset : PlaceSet (g.dir ++ [functionsDir, f.name]) (some (.dir true)) w.tree w'.tree)
    (hfree : w.tree.made (g.dir ++ [functionsDir, f.name]) = none) (hpath : f.path = g.dir ++ [functionsDir])
    (hnamed : f.Named) (haddr : w.next ≤ f.addr) (hlt : f.addr < w'.next) :
    MirrorStep cfg N True True w g (w', { g with functions := insertSorted Func.name f g.functions }) := by
  have hu := hset.untouched h.length_dir (List.cons_ne_nil _ _)
  have hfun : ∀ x, x ≠ f.name → w'.tree.made (g.dir ++ [functionsDir, x]) = w.tree.made (g.dir ++ [functionsDir, x]) :=
    fun x hx => hu.functions x (by simpa using hx)
  have hself : w'.tree.made (g.dir ++ [functionsDir, f.name]) = some (.dir true) :=
    hset.self ((place_append h.length_dir _).mpr (.inr (.inl rfl)))
  have hos : OsSame w.tree g w'.tree { g with functions := insertSorted Func.name f g.functions } :=
    ⟨fun x => hu.os x (by simp), rfl⟩
  -- the name is not taken, since the directories of the others are there
  have hnew : ∀ f' ∈ g.functions, f'.name ≠ f.name := by
    intro f' hf' heq
    have := (h.functions f' hf').made
    rw [heq, hfree] at this
    cases this
  exact
    { mirrored :=
        { shaped := hin.shaped
          path := h.path
          made := hu.dir.trans h.made
          functions := fun f' hf' => by
            rcases mem_insertSorted.mp hf' with rfl | hf'
            · exact ⟨hpath, hself, hnamed⟩
            · exact (h.functions f' hf').congr rfl (hfun _ (hnew f' hf'))
          configs := fun c hc => (h.configs c hc).congr
            (fun b _ f' hf' _ => ⟨f', mem_insertSorted.mpr (.inr hf'), rfl, rfl⟩) (hu.configs _ (by simp)) fun x =>
              hu.links _ x (by simp)
          functionNames := h.functionNames.insertSorted hnew
          configNames := h.configNames
          functionAddrs := (h.functionAddrs.cons fun f' hf' =>
            ne_of_lt (lt_of_lt_of_le (h.freshFunctions f' hf') haddr)).perm insertSorted_perm
          configAddrs := h.configAddrs
          os := h.os.congr rfl hos fun c hc _ _ => ⟨c, hc, rfl, rfl⟩
          freshFunctions := fun f' hf' => by
            rcases mem_insertSorted.mp hf' with rfl | hf'
            · exact hlt
            · exact lt_of_lt_of_le (h.freshFunctions f' hf') hin.next
          freshConfigs := fun c hc => lt_of_lt_of_le (h.freshConfigs c hc) hin.next
          freshOs := fun a ha => lt_of_lt_of_le (h.freshOs a ha) hin.next }
      within := hin
      core := rfl
      configs := fun c hc => .inl ⟨c, hc, rfl⟩
      tidy := fun _ ht => by
        refine ⟨fun x hx => ?_, fun x hx => ht.configs x fun hn => hx ((hu.configs x (by simp)).trans hn)⟩
        by_cases hxf : x = f.name
        · exact ⟨f, mem_insertSorted.mpr (.inl rfl), hxf.symm⟩
        · obtain ⟨f', hf', he⟩ := ht.functions x fun hn => hx ((hfun x hxf).trans hn)
          exact ⟨f', mem_insertSorted.mpr (.inr hf'), he⟩
      strays := fun ht => by
        refine ⟨fun x hx => ?_, fun x hx => ht.configs x fun hn => hx ((hu.configs x (by simp)).symm.trans hn)⟩
        have hxf : x ≠ f.name := fun hxf => hx (hxf ▸ hfree)
        obtain ⟨f', hf', rfl⟩ := ht.functions x fun hn => hx ((hfun x hxf).symm.trans hn)
        rcases mem_insertSorted.mp hf' with rfl | hf'
        · exact absurd rfl hxf
        · exact ⟨f', hf', rfl⟩
      os := fun _ => hos }

/-- A function that is gone: no binding leads to it any more. -/
lemma dropFunction (h : GadgetMirrored cfg N w g) (hf : f ∈ g.functions) (hin : Within cfg g.dir w w')
    (hset : PlaceSet (g.dir ++ [functionsDir, f.name]) none w.tree w'.tree)
    (hfree : ∀ c ∈ g.configs, ∀ b ∈ c.bindings, b.target ≠ f.addr) :
    MirrorStep cfg N True True w g (w', { g with functions := g.functions.filter (·.addr ≠ f.addr) }) := by
  have hu := hset.untouched h.length_dir (List.cons_ne_nil _ _)
  have hfun : ∀ x, x ≠ f.name → w'.tree.made (g.dir ++ [functionsDir, x]) = w.tree.made (g.dir ++ [functionsDir, x]) :=
    fun x hx => hu.functions x (by simpa using hx)
  have hgone : w'.tree.made (g.dir ++ [functionsDir, f.name]) = none :=
    hset.self ((place_append h.length_dir _).mpr (.inr (.inl rfl)))
  have hos : OsSame w.tree g w'.tree { g with functions := g.functions.filter (·.addr ≠ f.addr) } :=
    ⟨fun x => hu.os x (by simp), rfl⟩
  -- the list is filtered by address, the tree by name
  have hmem : ∀ f', f' ∈ g.functions.filter (·.addr ≠ f.addr) ↔ f' ∈ g.functions ∧ f'.name ≠ f.name := by
    intro f'
    rw [List.mem_filter, decide_eq_true_eq]
    refine and_congr_right fun hf' => not_congr ⟨fun he => ?_, fun he => ?_⟩
    · rw [h.functionAddrs.eq hf' hf he]
    · rw [h.functionNames.keysNodup.eq hf' hf he]
  have hstay : ∀ c ∈ g.configs, TargetsStay g.functions (g.functions.filter (·.addr ≠ f.addr)) c := by
    intro c hc b hb f' hf' haddr
    -- the target of a binding is another function
    refine ⟨f', List.mem_filter.mpr ⟨hf', ?_⟩, rfl, rfl⟩
    have := hfree c hc b hb
    rw [← haddr] at this
    simpa using this
  exact
    { mirrored :=
        { shaped := hin.shaped
          path := h.path
          made := hu.dir.trans h.made
          functions := fun f' hf' => by
            obtain ⟨hf', hne⟩ := (hmem f').mp hf'
            exact (h.functions f' hf').congr rfl (hfun _ hne)
          configs := fun c hc => (h.configs c hc).congr (hstay c hc) (hu.configs _ (by simp)) fun x =>
            hu.links _ x (by simp)
          functionNames := h.functionNames.sublist List.filter_sublist
          configNames := h.configNames
          functionAddrs := h.functionAddrs.filter _
          configAddrs := h.configAddrs
          os := h.os.congr rfl hos fun c hc _ _ => ⟨c, hc, rfl, rfl⟩
          freshFunctions := fun f' hf' => lt_of_lt_of_le (h.freshFunctions f' (List.mem_of_mem_filter hf')) hin.next
          freshConfigs := fun c hc => lt_of_lt_of_le (h.freshConfigs c hc) hin.next
          freshOs := fun a ha => lt_of_lt_of_le (h.freshOs a ha) hin.next }
      within := hin
      core := rfl
      configs := fun c hc => .inl ⟨c, hc, rfl⟩
      tidy := fun _ ht => by
        refine ⟨fun x hx => ?_, fun x hx => ht.configs x fun hn => hx ((hu.configs x (by simp)).trans hn)⟩
        have hxf : x ≠ f.name := fun hxf => hx (hxf ▸ hgone)
        obtain ⟨f', hf', rfl⟩ := ht.functions x fun hn => hx ((hfun x hxf).trans hn)
        exact ⟨f', (hmem f').mpr ⟨hf', hxf⟩, rfl⟩
      strays := fun ht => by
        refine ⟨fun x hx => ?_, fun x hx => ht.configs x fun hn => hx ((hu.configs x (by simp)).symm.trans hn)⟩
        by_cases hxf : x = f.name
        · exact ⟨f, hf, hxf.symm⟩
        · obtain ⟨f', hf', he⟩ := ht.functions x fun hn => hx ((hfun x hxf).symm.trans hn)
          exact ⟨f', ((hmem f').mp hf').1, he⟩
      os := fun _ => hos }

/-- Only what the operations of its type keep for themselves has changed in a function. -/
lemma updateFunction (h : GadgetMirrored cfg N w g) (hf : f ∈ g.functions)
    (hcore : f'.core = { f.core with label := f'.label }) (hin : Within cfg g.dir w w')
    (hs : SamePlaces w.tree w'.tree) :
    MirrorStep cfg N True True w g (w', g.setFunction f') := by
  have hstep := of_samePlaces h hin hs
  have haddr : f'.addr = f.addr := congrArg Func.Core.addr hcore
  have hmem : ∀ x ∈ (g.setFunction f').functions, ∃ x' ∈ g.functions, x.core = { x'.core with label := x.label } := by
    intro x hx
    obtain ⟨x', hx', rfl⟩ := List.mem_map.mp hx
    refine ⟨x', hx', ?_⟩
    by_cases he : x'.addr = f'.addr
    · rw [if_pos he, hcore, h.functionAddrs.eq hx' hf (he.trans haddr)]
    · rw [if_neg he]
      rfl
  -- keys that the function keeps are kept in the list
  have hmap : ∀ {β : Type} (key : Func → β), key f' = key f →
      (g.setFunction f').functions.map key = g.functions.map key := by
    intro β key hkey
    rw [Gadget.setFunction, List.map_map]
    refine List.map_congr_left fun x hx => ?_
    by_cases he : x.addr = f'.addr
    · rw [Function.comp_apply, if_pos he, hkey, h.functionAddrs.eq hx hf (he.trans haddr)]
    · rw [Function.comp_apply, if_neg he]
  have hstay : ∀ c, TargetsStay g.functions (g.setFunction f').functions c := by
    intro c b _ x hx _
    refine ⟨if x.addr = f'.addr then f' else x, List.mem_map_of_mem hx, ?_⟩
    by_cases he : x.addr = f'.addr
    · rw [if_pos he]
      obtain rfl := h.functionAddrs.eq hx hf (he.trans haddr)
      exact ⟨haddr, congrArg Func.Core.name hcore⟩
    · rw [if_neg he]
      exact ⟨rfl, rfl⟩
  have hnames : ∀ x, (∃ y ∈ (g.setFunction f').functions, y.name = x) ↔ ∃ y ∈ g.functions, y.name = x := by
    intro x
    have hname := hmap Func.name (congrArg Func.Core.name hcore)
    rw [← List.mem_map (f := Func.name), hname, List.mem_map]
  exact
    { mirrored :=
        { hstep.mirrored with
          functions := fun x hx => by
            obtain ⟨x', hx', he⟩ := hmem x hx
            exact (hstep.mirrored.functions x' hx').congr he rfl
          configs := fun c hc => (hstep.mirrored.configs c hc).congr (hstay c) rfl fun _ => rfl
          functionNames := by
            rw [hmap Func.name (congrArg Func.Core.name hcore)]
            exact h.functionNames
          functionAddrs := by
            rw [KeysNodup, hmap Func.addr haddr]
            exact h.functionAddrs
          os := { hstep.mirrored.os with }
          freshFunctions := fun x hx => by
            obtain ⟨x', hx', he⟩ := hmem x hx
            rw [show x.addr = x'.addr from congrArg Func.Core.addr he]
            exact hstep.mirrored.freshFunctions x' hx' }
      within := hin
      core := rfl
      configs := hstep.configs
      tidy := fun hp ht =>
        ⟨fun x hx => (hnames x).mpr ((hstep.tidy hp ht).functions x hx), (hstep.tidy hp ht).configs⟩
      strays := fun ht => hstep.strays ⟨fun x hx => (hnames x).mp (ht.functions x hx), ht.configs⟩
      os := fun hp => ⟨(hstep.os hp).made, (hstep.os hp).binding⟩ }

/-! ## Configurations -/

/-- A new configuration. -/
lemma insertConfig (h : GadgetMirrored cfg N w g) (hin : Within cfg g.dir w w')
    (hset : PlaceSet (g.dir ++ [configsDir, c.name]) (some (.dir true)) w.tree w'.tree)
    (hfree : w.tree.made (g.dir ++ [configsDir, c.name]) = none)
    (hempty : ∀ x, w.tree.made (g.dir ++ [configsDir, c.name, x]) = none) (hpath : c.path = g.dir ++ [configsDir])
    (hfits : (g.dir ++ [configsDir, c.name]).Fits)
    (hnamed : c.name = configName c.label c.id) (hid : 0 < c.id ∧ c.id ≤ 255) (hlabel : N.label c.label)
    (hbindings : c.bindings = []) (haddr : w.next ≤ c.addr) (hlt : c.addr < w'.next) :
    MirrorStep cfg N True True w g (w', { g with configs := insertSorted Config.name c g.configs }) := by
  have hu := hset.untouched h.length_dir (List.cons_ne_nil _ _)
  have hconf : ∀ x, x ≠ c.name → w'.tree.made (g.dir ++ [configsDir, x]) = w.tree.made (g.dir ++ [configsDir, x]) :=
    fun x hx => hu.configs x (by simpa using hx)
  have hself : w'.tree.made (g.dir ++ [configsDir, c.name]) = some (.dir true) :=
    hset.self ((place_append h.length_dir _).mpr (.inl rfl))
  have hos : OsSame w.tree g w'.tree { g with configs := insertSorted Config.name c g.configs } :=
    ⟨fun x => hu.os x (by simp), rfl⟩
  -- there was no directory of this name, so no configuration either
  have hnew : ∀ c' ∈ g.configs, c'.name ≠ c.name := by
    intro c' hc' heq
    have := (h.configs c' hc').made
    rw [heq, hfree] at this
    cases this
  exact
    { mirrored :=
        { shaped := hin.shaped
          path := h.path
          made := hu.dir.trans h.made
          functions := fun f hf => (h.functions f hf).congr rfl (hu.functions _ (by simp))
          configs := fun c' hc' => by
            rcases mem_insertSorted.mp hc' with rfl | hc'
            · -- the kernel makes no links in a new configuration
              refine ⟨hpath, hfits, hself, hnamed, hid, hlabel, ?_, ?_, fun x hx => absurd ?_ hx⟩
              · rw [hbindings]
                exact List.Pairwise.nil
              · rw [hbindings]
                simp
              · exact (hu.links _ x (by simp)).trans (hempty x)
            · exact (h.configs c' hc').congr (.refl _ c') (hconf _ (hnew c' hc')) fun x => hu.links _ x (by simp)
          functionNames := h.functionNames
          configNames := h.configNames.insertSorted hnew
          functionAddrs := h.functionAddrs
          configAddrs := (h.configAddrs.cons fun c' hc' =>
            ne_of_lt (lt_of_lt_of_le (h.freshConfigs c' hc') haddr)).perm insertSorted_perm
          os := h.os.congr rfl hos fun c' hc' _ _ => ⟨c', mem_insertSorted.mpr (.inr hc'), rfl, rfl⟩
          freshFunctions := fun f hf => lt_of_lt_of_le (h.freshFunctions f hf) hin.next
          freshConfigs := fun c' hc' => by
            rcases mem_insertSorted.mp hc' with rfl | hc'
            · exact hlt
            · exact lt_of_lt_of_le (h.freshConfigs c' hc') hin.next
          freshOs := fun a ha => lt_of_lt_of_le (h.freshOs a ha) hin.next }
      within := hin
      core := rfl
      configs := fun c' hc' => by
        rcases mem_insertSorted.mp hc' with rfl | hc'
        · exact .inr haddr
        · exact .inl ⟨c', hc', rfl⟩
      tidy := fun _ ht => by
        refine ⟨fun x hx => ht.functions x fun hn => hx ((hu.functions x (by simp)).trans hn), fun x hx => ?_⟩
        by_cases hxc : x = c.name
        · exact ⟨c, mem_insertSorted.mpr (.inl rfl), hxc.symm⟩
        · obtain ⟨c', hc', he⟩ := ht.configs x fun hn => hx ((hconf x hxc).trans hn)
          exact ⟨c', mem_insertSorted.mpr (.inr hc'), he⟩
      strays := fun ht => by
        refine ⟨fun x hx => ht.functions x fun hn => hx ((hu.functions x (by simp)).symm.trans hn), fun x hx => ?_⟩
        have hxc : x ≠ c.name := fun hxc => hx (hxc ▸ hfree)
        obtain ⟨c', hc', rfl⟩ := ht.configs x fun hn => hx ((hconf x hxc).symm.trans hn)
        rcases mem_insertSorted.mp hc' with rfl | hc'
        · exact absurd rfl hxc
        · exact ⟨c', hc', rfl⟩
      os := fun _ => hos }

/-- A configuration that is gone: the OS descriptor link did not lead to it. -/
lemma dropConfig (h : GadgetMirrored cfg N w g) (hc : c ∈ g.configs) (hin : Within cfg g.dir w w')
    (hset : PlaceSet (g.dir ++ [configsDir, c.name]) none w.tree w'.tree)
    (hfree : g.osDescBinding = some c.addr → ∀ x, w.tree.made (g.dir ++ [osDescDir, x]) = none) :
    MirrorStep cfg N True True w g (w', { g with configs := g.configs.filter (·.addr ≠ c.addr) }) := by
  have hu := hset.untouched h.length_dir (List.cons_ne_nil _ _)
  have hconf : ∀ x, x ≠ c.name → w'.tree.made (g.dir ++ [configsDir, x]) = w.tree.made (g.dir ++ [configsDir, x]) :=
    fun x hx => hu.configs x (by simpa using hx)
  have hgone : w'.tree.made (g.dir ++ [configsDir, c.name]) = none :=
    hset.self ((place_append h.length_dir _).mpr (.inl rfl))
  have hos : OsSame w.tree g w'.tree { g with configs := g.configs.filter (·.addr ≠ c.addr) } :=
    ⟨fun x => hu.os x (by simp), rfl⟩
  have hmem : ∀ c', c' ∈ g.configs.filter (·.addr ≠ c.addr) ↔ c' ∈ g.configs ∧ c'.name ≠ c.name := by
    intro c'
    rw [List.mem_filter, decide_eq_true_eq]
    refine and_congr_right fun hc' => not_congr ⟨fun he => ?_, fun he => ?_⟩
    · rw [h.configAddrs.eq hc' hc he]
    · rw [h.configNames.keysNodup.eq hc' hc he]
  exact
    { mirrored :=
        { shaped := hin.shaped
          path := h.path
          made := hu.dir.trans h.made
          functions := fun f hf => (h.functions f hf).congr rfl (hu.functions _ (by simp))
          configs := fun c' hc' => by
            obtain ⟨hc', hne⟩ := (hmem c').mp hc'
            exact (h.configs c' hc').congr (.refl _ c') (hconf _ hne) fun x => hu.links _ x (by simp)
          functionNames := h.functionNames
          configNames := h.configNames.sublist List.filter_sublist
          functionAddrs := h.functionAddrs
          configAddrs := h.configAddrs.filter _
          os := h.os.congr rfl hos fun c' hc' hb hx => by
            -- the configuration that a link leads to is not the one that is gone
            refine ⟨c', (hmem c').mpr ⟨hc', fun he => ?_⟩, rfl, rfl⟩
            obtain ⟨x, hx⟩ := hx
            rw [h.configNames.keysNodup.eq hc' hc he] at hb
            exact hx (hfree hb x)
          freshFunctions := fun f hf => lt_of_lt_of_le (h.freshFunctions f hf) hin.next
          freshConfigs := fun c' hc' => lt_of_lt_of_le (h.freshConfigs c' (List.mem_of_mem_filter hc')) hin.next
          freshOs := fun a ha => lt_of_lt_of_le (h.freshOs a ha) hin.next }
      within := hin
      core := rfl
      configs := fun c' hc' => .inl ⟨c', List.mem_of_mem_filter hc', rfl⟩
      tidy := fun _ ht => by
        refine ⟨fun x hx => ht.functions x fun hn => hx ((hu.functions x (by simp)).trans hn), fun x hx => ?_⟩
        have hxc : x ≠ c.name := fun hxc => hx (hxc ▸ hgone)
        obtain ⟨c', hc', rfl⟩ := ht.configs x fun hn => hx ((hconf x hxc).trans hn)
        exact ⟨c', (hmem c').mpr ⟨hc', hxc⟩, rfl⟩
      strays := fun ht => by
        refine ⟨fun x hx => ht.functions x fun hn => hx ((hu.functions x (by simp)).symm.trans hn), fun x hx => ?_⟩
        by_cases hxc : x = c.name
        · exact ⟨c, hc, hxc.symm⟩
        · obtain ⟨c', hc', he⟩ := ht.configs x fun hn => hx ((hconf x hxc).symm.trans hn)
          exact ⟨c', ((hmem c').mp hc').1, he⟩
      os := fun _ => hos }

/-- The bindings of a configuration have changed together with one of its links. -/
lemma updateConfig {y : CStr} {o : Option (Node CStr CStr)} (h : GadgetMirrored cfg N w g) (hc : c ∈ g.configs)
    (hcore : c'.core = c.core) (hin : Within cfg g.dir w w')
    (hset : PlaceSet (g.dir ++ [configsDir, c.name, y]) o w.tree w'.tree)
    (hnew : ConfigMirrored N w'.tree g.dir g.functions c') :
    MirrorStep cfg N True True w g (w', g.setConfig c') := by
  have hu := hset.untouched h.length_dir (List.cons_ne_nil _ _)
  have haddr : c'.addr = c.addr := congrArg Config.Core.addr hcore
  have hos : OsSame w.tree g w'.tree (g.setConfig c') := ⟨fun x => hu.os x (by simp), rfl⟩
  -- only the configuration at hand has changed, the others keep their links
  have hmem : ∀ x ∈ (g.setConfig c').configs, x = c' ∨ x ∈ g.configs ∧ x.name ≠ c.name := by
    intro x hx
    obtain ⟨x', hx', rfl⟩ := List.mem_map.mp hx
    by_cases he : x'.addr = c'.addr
    · exact .inl (if_pos he)
    · rw [if_neg he]
      refine .inr ⟨hx', fun hname => he ?_⟩
      rw [h.configNames.keysNodup.eq hx' hc hname, haddr]
  have hmap : ∀ {β : Type} (key : Config → β), key c' = key c →
      (g.setConfig c').configs.map key = g.configs.map key := by
    intro β key hkey
    rw [Gadget.setConfig, List.map_map]
    refine List.map_congr_left fun x hx => ?_
    by_cases he : x.addr = c'.addr
    · rw [Function.comp_apply, if_pos he, hkey, h.configAddrs.eq hx hc (he.trans haddr)]
    · rw [Function.comp_apply, if_neg he]
  have hcores : (g.setConfig c').configs.map Config.core = g.configs.map Config.core := hmap Config.core hcore
  have hold : ∀ x ∈ (g.setConfig c').configs, ∃ x' ∈ g.configs, x'.core = x.core := by
    intro x hx
    have := List.mem_map_of_mem (f := Config.core) hx
    rwa [hcores, List.mem_map] at this
  have hnames : ∀ x, (∃ y ∈ (g.setConfig c').configs, y.name = x) ↔ ∃ y ∈ g.configs, y.name = x := by
    intro x
    have hname := hmap Config.name (congrArg Config.Core.name hcore)
    rw [← List.mem_map (f := Config.name), hname, List.mem_map]
  exact
    { mirrored :=
        { shaped := hin.shaped
          path := h.path
          made := hu.dir.trans h.made
          functions := fun f hf => (h.functions f hf).congr rfl (hu.functions _ (by simp))
          configs := fun x hx => by
            rcases hmem x hx with rfl | ⟨hx, hne⟩
            · exact hnew
            · exact (h.configs x hx).congr (.refl _ x) (hu.configs _ (by simp)) fun z => hu.links _ z (by simp [hne])
          functionNames := h.functionNames
          configNames := by
            rw [hmap Config.name (congrArg Config.Core.name hcore)]
            exact h.configNames
          functionAddrs := h.functionAddrs
          configAddrs := by
            rw [KeysNodup, hmap Config.addr haddr]
            exact h.configAddrs
          os := h.os.congr rfl hos fun x hx _ _ => by
            have := List.mem_map_of_mem (f := Config.core) hx
            rw [← hcores, List.mem_map] at this
            obtain ⟨x', hx', he⟩ := this
            exact ⟨x', hx', congrArg Config.Core.addr he, congrArg Config.Core.name he⟩
          freshFunctions := fun f hf => lt_of_lt_of_le (h.freshFunctions f hf) hin.next
          freshConfigs := fun x hx => by
            obtain ⟨x', hx', he⟩ := hold x hx
            rw [← show x'.addr = x.addr from congrArg Config.Core.addr he]
            exact lt_of_lt_of_le (h.freshConfigs x' hx') hin.next
          freshOs := fun a ha => lt_of_lt_of_le (h.freshOs a ha) hin.next }
      within := hin
      core := rfl
      configs := fun x hx => .inl (hold x hx)
      tidy := fun _ ht =>
        ⟨fun x hx => ht.functions x fun hn => hx ((hu.functions x (by simp)).trans hn), fun x hx =>
          (hnames x).mpr (ht.configs x fun hn => hx ((hu.configs x (by simp)).trans hn))⟩
      strays := fun ht =>
        ⟨fun x hx => ht.functions x fun hn => hx ((hu.functions x (by simp)).symm.trans hn), fun x hx =>
          (hnames x).mp (ht.configs x fun hn => hx ((hu.configs x (by simp)).symm.trans hn))⟩
      os := fun _ => hos }

end MirrorStep

/-! ## Bindings -/

section Bindings

variable {fs : List Func} {f : Func} {c : Config} {b : Binding}

/-- A link that has been made, and a binding for it. -/
lemma ConfigMirrored.insertBinding (h : ConfigMirrored N T d fs c) (text : CStr) (hd : d.length = 3)
    (hset : PlaceSet (d ++ [configsDir, c.name, b.name]) (some (.link text (d ++ [functionsDir, f.name]))) T T')
    (hfree : T.made (d ++ [configsDir, c.name, b.name]) = none) (hpath : b.path = d ++ [configsDir, c.name])
    (hfits : (d ++ [configsDir, c.name, b.name]).Fits) (hf : f ∈ fs) (haddr : f.addr = b.target)
    (hlink : N.link text (d ++ [functionsDir, f.name])) :
    ConfigMirrored N T' d fs { c with bindings := insertSorted Binding.name b c.bindings } := by
  have hu := hset.untouched hd (List.cons_ne_nil _ _)
  have hself := hset.self ((place_append hd _).mpr rfl)
  have hlinks : ∀ x, x ≠ b.name → T'.made (d ++ [configsDir, c.name, x]) = T.made (d ++ [configsDir, c.name, x]) :=
    fun x hx => hu.links c.name x (by simpa using hx)
  have hnew : ∀ b' ∈ c.bindings, b'.name ≠ b.name := by
    intro b' hb' heq
    obtain ⟨-, -, f', -, -, text', -, hb'⟩ := h.bindings b' hb'
    rw [heq, hfree] at hb'
    cases hb'
  exact
    { h with
      made := (hu.configs _ (by simp)).trans h.made
      names := h.names.insertSorted hnew
      bindings := fun b' hb' => by
        rcases mem_insertSorted.mp hb' with rfl | hb'
        · exact ⟨hpath, hfits, f, hf, haddr, text, hlink, hself⟩
        · obtain ⟨hpath', hfits', f', hf', haddr', text', hlink', hmade⟩ := h.bindings b' hb'
          exact ⟨hpath', hfits', f', hf', haddr', text', hlink', (hlinks _ (hnew b' hb')).trans hmade⟩
      complete := fun x hx => by
        by_cases hxb : x = b.name
        · exact ⟨b, mem_insertSorted.mpr (.inl rfl), hxb.symm⟩
        · obtain ⟨b', hb', he⟩ := h.complete x fun hn => hx ((hlinks x hxb).trans hn)
          exact ⟨b', mem_insertSorted.mpr (.inr hb'), he⟩ }

/-- A link that is gone, and its binding. -/
lemma ConfigMirrored.eraseBinding (h : ConfigMirrored N T d fs c) (hb : b ∈ c.bindings) (hd : d.length = 3)
    (hset : PlaceSet (d ++ [configsDir, c.name, b.name]) none T T') :
    ConfigMirrored N T' d fs { c with bindings := c.bindings.erase b } := by
  have hu := hset.untouched hd (List.cons_ne_nil _ _)
  have hgone := hset.self ((place_append hd _).mpr rfl)
  have hlinks : ∀ x, x ≠ b.name → T'.made (d ++ [configsDir, c.name, x]) = T.made (d ++ [configsDir, c.name, x]) :=
    fun x hx => hu.links c.name x (by simpa using hx)
  have hnames : KeysNodup Binding.name c.bindings := h.names.keysNodup
  have hmem : ∀ b', b' ∈ c.bindings.erase b ↔ b' ∈ c.bindings ∧ b'.name ≠ b.name := by
    intro b'
    rw [List.Nodup.mem_erase_iff hnames.of_map, and_comm]
    exact and_congr_right fun hb' => not_congr ⟨fun he => he ▸ rfl, fun he => hnames.eq hb' hb he⟩
  exact
    { h with
      made := (hu.configs _ (by simp)).trans h.made
      names := h.names.sublist List.erase_sublist
      bindings := fun b' hb' => by
        obtain ⟨hb', hne⟩ := (hmem b').mp hb'
        obtain ⟨hpath', hfits', f', hf', haddr', text', hlink', hmade⟩ := h.bindings b' hb'
        exact ⟨hpath', hfits', f', hf', haddr', text', hlink', (hlinks _ hne).trans hmade⟩
      complete := fun x hx => by
        have hxb : x ≠ b.name := fun hxb => hx (hxb ▸ hgone)
        obtain ⟨b', hb', rfl⟩ := h.complete x fun hn => hx ((hlinks x hxb).trans hn)
        exact ⟨b', (hmem b').mpr ⟨hb', hxb⟩, rfl⟩ }

end Bindings

/-! ## The OS descriptor link -/

namespace MirrorStep

variable {c : Config} {y : CStr} {o : Option (Node CStr CStr)}

/-- Only the OS descriptor link has changed, and what the gadget remembers of it. -/
lemma updateOs (h : GadgetMirrored cfg N w g) (hin : Within cfg g.dir w w')
    (hset : PlaceSet (g.dir ++ [osDescDir, y]) o w.tree w'.tree) {a : Option Addr} (ha : ∀ x ∈ a, x < w.next)
    (hos : OsMirrored N w'.tree { g with osDescBinding := a }) :
    MirrorStep cfg N True False w g (w', { g with osDescBinding := a }) := by
  have hu := hset.untouched h.length_dir (List.cons_ne_nil _ _)
  exact
    { mirrored :=
        { h with
          shaped := hin.shaped
          made := hu.dir.trans h.made
          functions := fun f hf => (h.functions f hf).congr rfl (hu.functions _ (by simp))
          configs := fun c hc => (h.configs c hc).congr (.refl _ c) (hu.configs _ (by simp)) fun x =>
            hu.links _ x (by simp)
          os := hos
          freshFunctions := fun f hf => lt_of_lt_of_le (h.freshFunctions f hf) hin.next
          freshConfigs := fun c hc => lt_of_lt_of_le (h.freshConfigs c hc) hin.next
          freshOs := fun x hx => lt_of_lt_of_le (ha x hx) hin.next }
      within := hin
      core := rfl
      configs := fun c hc => .inl ⟨c, hc, rfl⟩
      tidy := fun _ ht =>
        ⟨fun x hx => ht.functions x fun hn => hx ((hu.functions x (by simp)).trans hn),
          fun x hx => ht.configs x fun hn => hx ((hu.configs x (by simp)).trans hn)⟩
      strays := fun ht =>
        ⟨fun x hx => ht.functions x fun hn => hx ((hu.functions x (by simp)).symm.trans hn),
          fun x hx => ht.configs x fun hn => hx ((hu.configs x (by simp)).symm.trans hn)⟩
      os := False.elim }

/-- The link has been set; there was none before. -/
lemma linkOs (h : GadgetMirrored cfg N w g) (hin : Within cfg g.dir w w') (hc : c ∈ g.configs) {text : CStr}
    (hset : PlaceSet (g.dir ++ [osDescDir, y]) (some (.link text (g.dir ++ [configsDir, c.name]))) w.tree w'.tree)
    (hlink : N.link text (g.dir ++ [configsDir, c.name])) (hfits : (g.dir ++ [osDescDir, y]).Fits)
    (hnone : g.osDescBinding = none) :
    MirrorStep cfg N True False w g (w', { g with osDescBinding := some c.addr }) := by
  have hu := hset.untouched h.length_dir (List.cons_ne_nil _ _)
  have hself := hset.self ((place_append h.length_dir _).mpr (.inr (.inr rfl)))
  -- a gadget that remembers no configuration has no such link
  have hbefore : ∀ x, w.tree.made (g.dir ++ [osDescDir, x]) = none := by
    intro x
    rcases hn : w.tree.made (g.dir ++ [osDescDir, x]) with - | n
    · rfl
    · obtain ⟨text', t, rfl⟩ := h.os_link hn
      obtain ⟨c', -, hos, -⟩ := h.os.target x text' t hn
      rw [hnone] at hos
      cases hos
  -- so the new link is the only one
  have honly : ∀ x, w'.tree.made (g.dir ++ [osDescDir, x]) ≠ none → x = y := by
    intro x hx
    by_contra hne
    exact hx ((hu.os x (by simpa using hne)).trans (hbefore x))
  refine updateOs h hin hset (fun x hx => ?_)
    ⟨fun x text' t hl => ?_, fun x text' t hl => ?_, fun x x' hx hx' => ?_, fun x hx => ?_⟩
  · rw [← Option.some.inj hx]
    exact h.freshConfigs c hc
  · have hl' : w'.tree.made (g.dir ++ [osDescDir, x]) = some (.link text' t) := hl
    obtain rfl := honly x (by rw [hl']; simp)
    rw [hself] at hl'
    cases hl'
    exact ⟨c, hc, rfl, rfl⟩
  · have hl' : w'.tree.made (g.dir ++ [osDescDir, x]) = some (.link text' t) := hl
    obtain rfl := honly x (by rw [hl']; simp)
    rw [hself] at hl'
    cases hl'
    exact hlink
  · exact (honly x hx).trans (honly x' hx').symm
  · obtain rfl := honly x hx
    exact hfits

/-- The link is gone; the gadget still remembers the configuration. -/
lemma unlinkOs (h : GadgetMirrored cfg N w g) (hin : Within cfg g.dir w w')
    (hset : PlaceSet (g.dir ++ [osDescDir, y]) none w.tree w'.tree) :
    MirrorStep cfg N True False w g (w', g) := by
  have hu := hset.untouched h.length_dir (List.cons_ne_nil _ _)
  have hgone := hset.self ((place_append h.length_dir _).mpr (.inr (.inr rfl)))
  have hold : ∀ x, w'.tree.made (g.dir ++ [osDescDir, x]) ≠ none →
      w'.tree.made (g.dir ++ [osDescDir, x]) = w.tree.made (g.dir ++ [osDescDir, x]) := by
    intro x hx
    refine hu.os x ?_
    have hne : x ≠ y := fun he => hx (he ▸ hgone)
    simpa using hne
  have hlinks : ∀ x text t, w'.tree.made (g.dir ++ [osDescDir, x]) = some (.link text t) →
      w.tree.made (g.dir ++ [osDescDir, x]) = some (.link text t) := fun x text t hl =>
    (hold x (by rw [hl]; simp)).symm.trans hl
  refine updateOs h hin hset h.freshOs
    ⟨fun x text t hl => ?_, fun x text t hl => ?_, fun x x' hx hx' => ?_, fun x hx => ?_⟩
  · exact h.os.target x text t (hlinks x text t hl)
  · exact h.os.link x text t (hlinks x text t hl)
  · exact h.os.one x x' (hold x hx ▸ hx) (hold x' hx' ▸ hx')
  · exact h.os.fits x (hold x hx ▸ hx)

end MirrorStep

end Libusbgx
