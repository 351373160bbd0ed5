import Libusbgx.Mirror.Import

/-!
# All gadgets

The gadgets of a state have directories of their own, so what a call does with one of them is nothing to the
others.
-/

namespace Libusbgx

open Prog Machine

variable {M : Machine} {cfg : CStr} {N : Naming} {T T' : Tree} {w w' w₀ : World Fs} {g g' : Gadget} {s s' : State}
  {t t' : World Fs × State} {d p : Path} {tidy same : Prop} {α : Type}

/-- The lists of the library mirror the tree. -/
structure StateMirrored (cfg : CStr) (N : Naming) (t : World Fs × State) : Prop where
  shaped : Shaped cfg t.1.tree
  path : t.2.path = [cfg, gadgetsDir]
  dir : t.1.tree.IsDir [cfg, gadgetsDir]
  gadgets : ∀ g ∈ t.2.gadgets, GadgetMirrored cfg N t.1 g
  names : Increasing (t.2.gadgets.map Gadget.name)
  addrs : KeysNodup Gadget.addr t.2.gadgets
  fresh : ∀ g ∈ t.2.gadgets, g.addr < t.1.next

/-- Every directory of a gadget, a function or a configuration is in the lists. -/
structure StateTidy (cfg : CStr) (t : World Fs × State) : Prop where
  gadgets : ∀ x, t.1.tree.made [cfg, gadgetsDir, x] ≠ none → ∃ g ∈ t.2.gadgets, g.name = x
  each : ∀ g ∈ t.2.gadgets, Tidy t.1.tree g

/-! ## One gadget and the others -/

lemma Outside.made (h : Outside p T T') {q : Path} (hq : ¬ p <+: q) : T'.made q = T.made q :=
  FileTree.made_congr (h q hq)

/-- A gadget in whose directory nothing has changed. -/
lemma GadgetMirrored.frame (h : GadgetMirrored cfg N w g) (hs : Shaped cfg w'.tree) (hn : w.next ≤ w'.next)
    (hmade : ∀ r, w'.tree.made (g.dir ++ r) = w.tree.made (g.dir ++ r)) : GadgetMirrored cfg N w' g :=
  { h with
    shaped := hs
    made := by
      have := hmade []
      rw [List.append_nil] at this
      exact this.trans h.made
    functions := fun f hf => (h.functions f hf).congr rfl (hmade _)
    configs := fun c hc => (h.configs c hc).congr (.refl _ c) (hmade _) fun _ => hmade _
    os := h.os.congr rfl ⟨fun _ => hmade _, rfl⟩ fun c hc _ _ => ⟨c, hc, rfl, rfl⟩
    freshFunctions := fun f hf => lt_of_lt_of_le (h.freshFunctions f hf) hn
    freshConfigs := fun c hc => lt_of_lt_of_le (h.freshConfigs c hc) hn
    freshOs := fun a ha => lt_of_lt_of_le (h.freshOs a ha) hn }

lemma Tidy.frame (h : Tidy T g) (hmade : ∀ r, T'.made (g.dir ++ r) = T.made (g.dir ++ r)) : Tidy T' g :=
  ⟨fun x hx => h.functions x (by rwa [hmade] at hx), fun x hx => h.configs x (by rwa [hmade] at hx)⟩

/-- The directory of the gadgets is in none of them. -/
lemma Within.isDir_gadgets {x : CStr} (h : Within cfg [cfg, gadgetsDir, x] w w') :
    w'.tree.IsDir [cfg, gadgetsDir] ↔ w.tree.IsDir [cfg, gadgetsDir] := by
  rw [FileTree.IsDir, FileTree.IsDir, h.outside [cfg, gadgetsDir] fun hpre => absurd hpre.length_le (by simp)]

namespace StateMirrored

/-- The directories of two gadgets are apart. -/
lemma not_prefix (h : StateMirrored cfg N (w, s)) (hg : g ∈ s.gadgets) {x : CStr} (hx : g.name ≠ x) (r : Path) :
    ¬ [cfg, gadgetsDir, x] <+: g.dir ++ r := by
  rw [(h.gadgets g hg).dir_eq]
  intro hpre
  obtain ⟨r', hr'⟩ := hpre
  exact hx (by simpa using (List.cons.inj (List.cons.inj (List.cons.inj hr').2).2).1.symm)

/-- What is done in the directory of a gadget is nothing to the others. -/
lemma other (h : StateMirrored cfg N (w, s)) (hg : g ∈ s.gadgets) {x : CStr} (hx : g.name ≠ x)
    (hin : Within cfg [cfg, gadgetsDir, x] w w') (r : Path) : w'.tree.made (g.dir ++ r) = w.tree.made (g.dir ++ r) :=
  Outside.made hin.outside (h.not_prefix hg hx r)

lemma mem_setGadget (h : StateMirrored cfg N (w, s)) (hg : g ∈ s.gadgets) (haddr : g'.addr = g.addr) :
    ∀ d ∈ (s.setGadget g').gadgets, d = g' ∨ d ∈ s.gadgets ∧ d.name ≠ g.name := by
  intro d hd
  obtain ⟨d', hd', rfl⟩ := List.mem_map.mp hd
  by_cases he : d'.addr = g'.addr
  · exact .inl (if_pos he)
  · rw [if_neg he]
    refine .inr ⟨hd', fun hname => he ?_⟩
    rw [Increasing.keysNodup h.names |>.eq hd' hg hname, haddr]

lemma map_setGadget (h : StateMirrored cfg N (w, s)) (hg : g ∈ s.gadgets) (haddr : g'.addr = g.addr) {β : Type}
    (key : Gadget → β) (hkey : key g' = key g) : (s.setGadget g').gadgets.map key = s.gadgets.map key := by
  rw [State.setGadget, List.map_map]
  refine List.map_congr_left fun d hd => ?_
  by_cases he : d.addr = g'.addr
  · rw [Function.comp_apply, if_pos he, hkey, h.addrs.eq hd hg (he.trans haddr)]
  · rw [Function.comp_apply, if_neg he]

/-- A call on one gadget. -/
lemma setGadget (h : StateMirrored cfg N (w, s)) (hg : g ∈ s.gadgets)
    (hstep : MirrorStep cfg N tidy same w g (w', g')) :
    StateMirrored cfg N (w', s.setGadget g') := by
  have haddr : g'.addr = g.addr := congrArg Gadget.Core.addr hstep.core
  have hname : g'.name = g.name := congrArg Gadget.Core.name hstep.core
  have hin : Within cfg [cfg, gadgetsDir, g.name] w w' := (h.gadgets g hg).dir_eq ▸ hstep.within
  exact
    { shaped := hin.shaped
      path := h.path
      dir := hin.isDir_gadgets.mpr h.dir
      gadgets := fun d hd => by
        rcases h.mem_setGadget hg haddr d hd with rfl | ⟨hd, hne⟩
        · exact hstep.mirrored
        · exact (h.gadgets d hd).frame hin.shaped hin.next (h.other hd hne hin)
      names := by
        show Increasing ((s.setGadget g').gadgets.map Gadget.name)
        rw [h.map_setGadget hg haddr Gadget.name hname]
        exact h.names
      addrs := by
        show ((s.setGadget g').gadgets.map Gadget.addr).Nodup
        rw [h.map_setGadget hg haddr Gadget.addr haddr]
        exact h.addrs
      fresh := fun d hd => by
        rcases h.mem_setGadget hg haddr d hd with rfl | ⟨hd, -⟩
        · rw [haddr]
          exact lt_of_lt_of_le (h.fresh g hg) hin.next
        · exact lt_of_lt_of_le (h.fresh d hd) hin.next }

lemma tidy_setGadget (h : StateMirrored cfg N (w, s)) (hg : g ∈ s.gadgets)
    (hstep : MirrorStep cfg N tidy same w g (w', g'))
    (hp : tidy) (ht : StateTidy cfg (w, s)) : StateTidy cfg (w', s.setGadget g') := by
  have haddr : g'.addr = g.addr := congrArg Gadget.Core.addr hstep.core
  have hname : g'.name = g.name := congrArg Gadget.Core.name hstep.core
  have hin : Within cfg [cfg, gadgetsDir, g.name] w w' := (h.gadgets g hg).dir_eq ▸ hstep.within
  refine ⟨fun x hx => ?_, fun d hd => ?_⟩
  · have hold : ∃ d ∈ s.gadgets, d.name = x := by
      by_cases hxg : x = g.name
      · exact ⟨g, hg, hxg.symm⟩
      · refine ht.gadgets x fun hn => hx ?_
        refine (Outside.made hin.outside fun hpre => hxg ?_).trans hn
        exact (List.cons.inj (List.cons.inj (List.cons.inj (hpre.eq_of_length rfl)).2).2).1.symm
    have hmem : x ∈ (s.setGadget g').gadgets.map Gadget.name := by
      rw [h.map_setGadget hg haddr Gadget.name hname]
      exact List.mem_map.mpr hold
    exact List.mem_map.mp hmem
  · rcases h.mem_setGadget hg haddr d hd with rfl | ⟨hd, hne⟩
    · exact hstep.tidy hp (ht.each g hg)
    · exact (ht.each d hd).frame (h.other hd hne hin)

end StateMirrored

/-- What holds between the calls; if `tidy` then nothing is left behind. -/
def StateInv (cfg : CStr) (N : Naming) (tidy : Prop) (t : World Fs × State) : Prop :=
  StateMirrored cfg N t ∧ (tidy → StateTidy cfg t)

/-- What a call on a gadget does, the call does on the gadget of a state. -/
lemma onGadget_mirror {a : Addr} {m : On Fs Gadget α} (left : World Fs → Prop) (h : StateInv cfg N tidy t)
    (hm : ∀ g ∈ t.2.gadgets, g.addr = a → GadgetMirrored cfg N t.1 g →
      Ends (fun _ => MirrorStep cfg N True False t.1 g) (fun _ t' => MirrorStep cfg N (left t'.1) False t.1 g t') True
        (m (t.1, g))) :
    Ends (fun _ => StateInv cfg N tidy) (fun _ t' => StateInv cfg N (left t'.1 ∧ tidy) t') True (onGadget a m t) := by
  obtain ⟨w, s⟩ := t
  obtain ⟨hmir, htidy⟩ := h
  rw [onGadget]
  cases hg : s.gadget? a with
  | none =>
    rw [zoom_none (by rw [hg]; rfl)]
    trivial
  | some g =>
    rw [zoom_some (t := (w, g)) (by rw [hg]; rfl)]
    have hmem : g ∈ s.gadgets := find?_key_mem hg
    have hends := hm g hmem (find?_key_key hg) (hmir.gadgets g hmem)
    rcases hr : m (w, g) with ⟨_ | e | _, w', g'⟩ <;> rw [hr] at hends
    · exact ⟨hmir.setGadget hmem hends, fun hp => hmir.tidy_setGadget hmem hends trivial (htidy hp)⟩
    · exact ⟨hmir.setGadget hmem hends, fun hp => hmir.tidy_setGadget hmem hends hp.1 (htidy hp.2)⟩
    · trivial

/-! ## New gadgets -/

/-- The directory of a gadget has been made, and the gadget is in no list yet. -/
structure NewGadget (cfg name : CStr) (t : World Fs × State) (gad : Gadget) (t' : World Fs × State) : Prop where
  path : gad.path = [cfg, gadgetsDir]
  named : gad.name = name
  addr : gad.addr = t.1.next
  functions : gad.functions = []
  configs : gad.configs = []
  os : gad.osDescBinding = none
  within : Within cfg [cfg, gadgetsDir, name] t.1 t'.1
  next : t.1.next < t'.1.next
  free : ∀ r, t.1.tree.made ([cfg, gadgetsDir, name] ++ r) = none
  set : PlaceSet [cfg, gadgetsDir, name] (some (.dir true)) t.1.tree t'.1.tree
  gadgets : t'.2.gadgets = t.2.gadgets
  statePath : t'.2.path = t.2.path

/-- What is made at a path is as it was before, or belongs to a gadget of the list. -/
def LeftListed (t t' : World Fs × State) (p : Path) : Prop :=
  t'.1.tree.made p = t.1.tree.made p ∨ ∃ g ∈ t'.2.gadgets, g.dir = p

instance (t t' : World Fs × State) (p : Path) : Decidable (LeftListed t t' p) := inferInstanceAs (Decidable (_ ∨ _))

/-- No gadget has been made, but its directory may be there. -/
structure NoGadget (cfg name : CStr) (t t' : World Fs × State) : Prop where
  within : t'.1.tree = t.1.tree ∨ (∀ r, t.1.tree.made ([cfg, gadgetsDir, name] ++ r) = none) ∧
    Within cfg [cfg, gadgetsDir, name] t.1 t'.1 ∧ ∃ o, PlaceSet [cfg, gadgetsDir, name] o t.1.tree t'.1.tree
  next : t.1.next ≤ t'.1.next
  gadgets : t'.2.gadgets = t.2.gadgets
  statePath : t'.2.path = t.2.path

lemma NoGadget.of_eq (name : CStr) (ht : t'.1.tree = t.1.tree) (hn : t.1.next ≤ t'.1.next) (hs : t'.2 = t.2) :
    NoGadget cfg name t t' := ⟨.inl ht, hn, by rw [hs], by rw [hs]⟩

namespace StateMirrored

variable {name : CStr} {gad : Gadget}

/-- A name without a directory is not that of a gadget. -/
lemma name_ne (h : StateMirrored cfg N t) (hfree : t.1.tree.made [cfg, gadgetsDir, name] = none)
    (hg : g ∈ t.2.gadgets) :
    g.name ≠ name := by
  rintro rfl
  have hmade := (h.gadgets g hg).made
  rw [(h.gadgets g hg).dir_eq, hfree] at hmade
  cases hmade

/-- Nothing has changed in the directories of the gadgets. -/
lemma of_frame (h : StateMirrored cfg N t) (hs : Shaped cfg t'.1.tree) (hdir : t'.1.tree.IsDir [cfg, gadgetsDir])
    (hn : t.1.next ≤ t'.1.next)
    (hg : t'.2.gadgets = t.2.gadgets) (hp : t'.2.path = t.2.path)
    (hmade : ∀ g ∈ t.2.gadgets, ∀ r, t'.1.tree.made (g.dir ++ r) = t.1.tree.made (g.dir ++ r)) :
    StateMirrored cfg N t' where
  shaped := hs
  path := hp.trans h.path
  dir := hdir
  gadgets g hmem := (h.gadgets g (hg ▸ hmem)).frame hs hn (hmade g (hg ▸ hmem))
  names := hg ▸ h.names
  addrs := hg ▸ h.addrs
  fresh g hmem := lt_of_lt_of_le (h.fresh g (hg ▸ hmem)) hn

lemma made_of_noGadget (h : StateMirrored cfg N t) (hno : NoGadget cfg name t t') :
    ∀ g ∈ t.2.gadgets, ∀ r, t'.1.tree.made (g.dir ++ r) = t.1.tree.made (g.dir ++ r) := by
  intro g hg r
  rcases hno.within with ht | ⟨hfree, hin, -⟩
  · rw [ht]
  · exact h.other hg (h.name_ne (hfree []) hg) hin r

/-- A failed constructor of a gadget -/
lemma noGadget (h : StateMirrored cfg N t) (hno : NoGadget cfg name t t') : StateMirrored cfg N t' := by
  refine h.of_frame ?_ ?_ hno.next hno.gadgets hno.statePath (h.made_of_noGadget hno)
  · rcases hno.within with ht | ⟨-, hin, -⟩
    · exact ht ▸ h.shaped
    · exact hin.shaped
  · rcases hno.within with ht | ⟨-, hin, -⟩
    · exact ht ▸ h.dir
    · exact hin.isDir_gadgets.mpr h.dir

lemma tidy_noGadget (h : StateMirrored cfg N t) (hno : NoGadget cfg name t t')
    (hleft : LeftListed t t' [cfg, gadgetsDir, name]) (ht : StateTidy cfg t) : StateTidy cfg t' := by
  have hsame : t'.1.tree.made [cfg, gadgetsDir, name] = t.1.tree.made [cfg, gadgetsDir, name] := by
    rcases hno.within with htree | ⟨hfree, -⟩
    · rw [htree]
    · refine hleft.resolve_right ?_
      -- a gadget of the list would have been there before
      rintro ⟨g, hg, hdir⟩
      have hmade := (h.gadgets g (hno.gadgets ▸ hg)).made
      rw [hdir, ← List.append_nil [cfg, gadgetsDir, name], hfree] at hmade
      cases hmade
  refine ⟨fun x hx => ?_, fun g hg => ?_⟩
  · rw [hno.gadgets]
    refine ht.gadgets x fun hn => hx ?_
    rcases hno.within with htree | ⟨-, -, o, hset⟩
    · rw [htree, hn]
    · by_cases hxn : x = name
      · rw [hxn, hsame, ← hxn, hn]
      · exact (hset.of_ne (q := [cfg, gadgetsDir, x]) trivial (by simpa using hxn)).trans hn
  · rw [hno.gadgets] at hg
    exact (ht.each g hg).frame (h.made_of_noGadget hno g hg)

end StateMirrored

namespace NewGadget

variable {name : CStr} {gad : Gadget}

lemma dir_eq (h : NewGadget cfg name t gad t') : gad.dir = [cfg, gadgetsDir, name] := by
  rw [Gadget.dir, h.path, h.named]
  rfl

/-- Nothing is in the directory yet. -/
lemma made_below (h : NewGadget cfg name t gad t') {r : Path} (hr : r ≠ []) (hplace : Place r) :
    t'.1.tree.made (gad.dir ++ r) = none := by
  rw [h.dir_eq]
  refine (h.set.of_ne (q := [cfg, gadgetsDir, name] ++ r) hplace ?_).trans (h.free r)
  intro heq
  exact hr (by simpa using heq)

lemma mirrored (h : NewGadget cfg name t gad t') : GadgetMirrored cfg N t'.1 gad where
  shaped := h.within.shaped
  path := h.path
  made := by
    rw [h.dir_eq]
    exact h.set.self trivial
  functions := by simp [h.functions]
  configs := by simp [h.configs]
  functionNames := by
    rw [h.functions]
    exact List.Pairwise.nil
  configNames := by
    rw [h.configs]
    exact List.Pairwise.nil
  functionAddrs := by
    rw [h.functions]
    exact List.nodup_nil
  configAddrs := by
    rw [h.configs]
    exact List.nodup_nil
  os := by
    have hno : ∀ x, t'.1.tree.made (gad.dir ++ [osDescDir, x]) = none := fun x =>
      h.made_below (List.cons_ne_nil _ _) (.inr (.inr rfl))
    refine ⟨fun x text t hx => ?_, fun x text t hx => ?_, fun x y hx _ => absurd (hno x) hx,
      fun x hx => absurd (hno x) hx⟩
    · rw [hno] at hx
      cases hx
    · rw [hno] at hx
      cases hx
  freshFunctions := by simp [h.functions]
  freshConfigs := by simp [h.configs]
  freshOs := by simp [h.os]

lemma tidies (h : NewGadget cfg name t gad t') : Tidy t'.1.tree gad where
  functions x hx := absurd (h.made_below (r := [functionsDir, x]) (List.cons_ne_nil _ _) (.inr (.inl rfl))) hx
  configs x hx := absurd (h.made_below (r := [configsDir, x]) (List.cons_ne_nil _ _) (.inl rfl)) hx

/-- The gadget is put into the list. -/
lemma insert (h : NewGadget cfg name t gad t') (hm : StateMirrored cfg N t) :
    StateMirrored cfg N (t'.1, { t'.2 with gadgets := insertSorted Gadget.name gad t'.2.gadgets }) := by
  have hnew : ∀ g ∈ t'.2.gadgets, g.name ≠ gad.name := by
    intro g hg
    rw [h.named]
    exact hm.name_ne (h.free []) (h.gadgets ▸ hg)
  exact
    { shaped := h.within.shaped
      path := h.statePath.trans hm.path
      dir := h.within.isDir_gadgets.mpr hm.dir
      gadgets := fun g hg => by
        rcases mem_insertSorted.mp hg with rfl | hg
        · exact h.mirrored
        · have hg' : g ∈ t.2.gadgets := h.gadgets ▸ hg
          exact (hm.gadgets g hg').frame h.within.shaped h.within.next (hm.other hg' (h.named ▸ hnew g hg) h.within)
      names := Increasing.insertSorted (h.gadgets ▸ hm.names) hnew
      addrs := by
        have haddrs : KeysNodup Gadget.addr (gad :: t'.2.gadgets) := by
          rw [h.gadgets]
          exact hm.addrs.cons fun g hg => ne_of_lt (h.addr ▸ hm.fresh g hg)
        exact haddrs.perm insertSorted_perm
      fresh := fun g hg => by
        rcases mem_insertSorted.mp hg with rfl | hg
        · rw [h.addr]
          exact h.next
        · exact lt_trans (hm.fresh g (h.gadgets ▸ hg)) h.next }

lemma insert_tidy (h : NewGadget cfg name t gad t') (hm : StateMirrored cfg N t) (ht : StateTidy cfg t) :
    StateTidy cfg (t'.1, { t'.2 with gadgets := insertSorted Gadget.name gad t'.2.gadgets }) := by
  refine ⟨fun x hx => ?_, fun g hg => ?_⟩
  · by_cases hxn : x = name
    · exact ⟨gad, mem_insertSorted.mpr (.inl rfl), h.named.trans hxn.symm⟩
    · obtain ⟨g, hg, he⟩ := ht.gadgets x fun hn => hx ((h.set.of_ne (q := [cfg, gadgetsDir, x]) trivial
        (by simpa using hxn)).trans hn)
      exact ⟨g, mem_insertSorted.mpr (.inr (h.gadgets ▸ hg)), he⟩
  · rcases mem_insertSorted.mp hg with rfl | hg
    · exact h.tidies
    · have hg' : g ∈ t.2.gadgets := h.gadgets ▸ hg
      exact (ht.each g hg').frame (hm.other hg' (hm.name_ne (h.free []) hg') h.within)

/-- There has been work in the directory that leaves the places alone. -/
lemma beside (h : NewGadget cfg name t gad t') {w : World Fs} (hb : Beside cfg [cfg, gadgetsDir, name] t'.1 w) :
    NewGadget cfg name t gad (w, t'.2) :=
  { h with
    within := h.within.trans hb.within
    next := lt_of_lt_of_le h.next hb.within.next
    set := h.set.same hb.places }

end NewGadget

end Libusbgx
