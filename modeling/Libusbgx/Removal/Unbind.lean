import Libusbgx.Removal.Readable
import Libusbgx.Source.Remove

/-!
# Removing the bindings of a function

A recursive `usbg_rm_function` walks over the bindings of all configurations and removes those to its
function as it goes.  The walk may stop at any binding; what it has done then is exactly what stands
before this binding.  When it has come to its end, the callback of the type of the function is called,
and that of a mass storage function reads the mask.
-/

namespace Libusbgx

open Prog Machine

variable {M : Machine} {w : World Fs} {T T' : Tree} {f : Addr}

/-! ## Lists -/

section Lists

variable {α : Type} {p : α → Bool} {l pre post : List α} {b : α}

/-- Where the next element with the property stands. -/
lemma next_of_prefix {done : List α} (h : done ++ [b] <+: l.filter p) (hl : l = pre ++ post)
    (hdone : pre.filter p = done) :
    ∃ mid post', post = mid ++ b :: post' ∧ p b = true ∧ ∀ x ∈ mid, p x = false := by
  obtain ⟨rest, hrest⟩ := h
  rw [hl, List.filter_append, hdone, List.append_assoc] at hrest
  have hpost : post.filter p = b :: rest := (List.append_cancel_left hrest).symm
  obtain ⟨mid, post', rfl, hmid, hb, -⟩ := List.filter_eq_cons_iff.mp hpost
  exact ⟨mid, post', rfl, hb, fun x hx => by simpa using hmid x hx⟩

/-- Erasing the first element with the property, when the elements in front of it have been dealt
with. -/
lemma erase_of_first [DecidableEq α] {mid : List α} (hb : p b = true) (hmid : ∀ x ∈ mid, p x = false) :
    (pre.filter (fun x => !p x) ++ (mid ++ b :: post)).erase b = (pre ++ mid).filter (fun x => !p x) ++ post := by
  have hpre : b ∉ pre.filter fun x => !p x := by
    intro hmem
    have := (List.mem_filter.mp hmem).2
    rw [hb] at this
    cases this
  have hmem : b ∉ mid := fun hmem => by
    have := hmid b hmem
    rw [hb] at this
    cases this
  have hkeep : mid.filter (fun x => !p x) = mid :=
    List.filter_eq_self.mpr fun x hx => by rw [hmid x hx]; rfl
  rw [List.erase_append_right _ hpre, List.erase_append_right _ hmem, List.erase_cons_head, List.filter_append,
    hkeep, List.append_assoc]

end Lists

/-! ## Links that are gone -/

/-- The link of a binding. -/
def Binding.link (b : Binding) : Path := (b.path ++ [b.name]).resolve

/-- The trees differ in that the links of these bindings, which were there, are gone. -/
structure Unlinked (bs : List Binding) (T T' : Tree) : Prop where
  get : ∀ q, T'.get q = if q ∈ bs.map Binding.link then none else T.get q
  links : ∀ b ∈ bs, ∃ text target, T.get b.link = some (.link text target)

namespace Unlinked

variable {bs cs : List Binding} {T'' : Tree}

lemma nil (T : Tree) : Unlinked [] T T := ⟨fun _ => rfl, by simp⟩

lemma append (h : Unlinked bs T T') (h' : Unlinked cs T' T'') : Unlinked (bs ++ cs) T T'' := by
  constructor
  case get =>
    intro q
    rw [h'.get q, h.get q, List.map_append]
    by_cases hq : q ∈ cs.map Binding.link
    · rw [if_pos hq, if_pos (List.mem_append_right _ hq)]
    · by_cases hq' : q ∈ bs.map Binding.link
      · rw [if_neg hq, if_pos hq', if_pos (List.mem_append_left _ hq')]
      · rw [if_neg hq, if_neg hq', if_neg fun h => (List.mem_append.mp h).elim hq' hq]
  case links =>
    intro b hb
    rcases List.mem_append.mp hb with hb | hb
    · exact h.links b hb
    · obtain ⟨text, target, hlink⟩ := h'.links b hb
      rw [h.get] at hlink
      split at hlink
      · cases hlink
      · exact ⟨text, target, hlink⟩

lemma erase {b : Binding} {text : CStr} {target : Path} (h : T.get b.link = some (.link text target)) :
    Unlinked [b] T (T.erase b.link) where
  get q := by
    rw [FileTree.get_erase]
    simp only [List.map_singleton, List.mem_singleton]
  links b' hb' := by
    rw [List.mem_singleton.mp hb']
    exact ⟨text, target, h⟩

lemma shrinks (h : Unlinked bs T T') : Shrinks T T' := by
  intro q
  rw [h.get]
  by_cases hq : q ∈ bs.map Binding.link
  · exact .inr (if_pos hq)
  · exact .inl (if_neg hq)

/-- Directories are not links. -/
lemma isDir (h : Unlinked bs T T') {q : Path} (hdir : T.IsDir q) : T'.IsDir q := by
  have hout : q ∉ bs.map Binding.link := by
    intro hmem
    obtain ⟨b, hb, rfl⟩ := List.mem_map.mp hmem
    obtain ⟨text, target, hlink⟩ := h.links b hb
    obtain ⟨made, hmade⟩ := FileTree.isDir_iff.mp hdir
    rw [hmade] at hlink
    cases hlink
  rw [FileTree.IsDir, h.get, if_neg hout]
  exact hdir

end Unlinked

/-! ## One binding -/

/-- `usbg_rm_binding` -/
lemma usbgRmBinding_ends {b : Binding} {c : Config} (hb : b ∈ c.bindings) :
    Ends (fun _ s => s.2 = { c with bindings := c.bindings.erase b } ∧ Unlinked [b] w.tree s.1.tree)
      (fun _ s => s.2 = c ∧ s.1.tree = w.tree ∧ M.Refuses (.unlink (b.path ++ [b.name])) w.tree) False
      (usbgRmBinding M.kernel b (w, c)) := by
  rw [usbgRmBinding, self_bind_apply]
  dsimp only
  rw [if_pos hb]
  refine Ends.bind (R := fun _ s => s.2 = c ∧ Unlinked [b] w.tree s.1.tree)
    (ends_io (ends_usbgRmFile (fun w' hunlink _ => ?_) fun e w' hwhy ht _ => ⟨rfl, ht, hwhy⟩)) ?_
  · obtain ⟨⟨text, target, hlink⟩, ht⟩ := unlink_eq_ok.mp hunlink
    rw [ht]
    exact ⟨rfl, Unlinked.erase hlink⟩
  · rintro - ⟨w', c'⟩ ⟨hconf, hlinks⟩
    obtain rfl : c = c' := hconf.symm
    exact ⟨rfl, hlinks⟩

/-! ## One configuration -/

/-- The bindings to a function. -/
def bindingsTo (f : Addr) (bs : List Binding) : List Binding := bs.filter (·.target = f)

/-- The bindings to other functions. -/
def bindingsElse (f : Addr) (bs : List Binding) : List Binding := bs.filter (·.target ≠ f)

lemma bindingsElse_eq (f : Addr) (bs : List Binding) :
    bindingsElse f bs = bs.filter fun b => !(decide (b.target = f)) := by
  simp [bindingsElse]

/-- The walk over the bindings of a configuration has stopped at a binding to the function: those before
it are gone. -/
structure ConfigStopped (M : Machine) (f : Addr) (c c' : Config) (pre : List Binding) (b : Binding)
    (T' : Tree) : Prop where
  at_binding : ∃ post, c.bindings = pre ++ b :: post ∧ c' = { c with bindings := bindingsElse f pre ++ b :: post }
  target : b.target = f
  refused : M.Refuses (.unlink (b.path ++ [b.name])) T'

/-- The loop over the bindings of one configuration. -/
lemma rmBindingsTo_ends (c : Config) :
    Ends (fun _ s => s.2 = { c with bindings := bindingsElse f c.bindings } ∧
        Unlinked (bindingsTo f c.bindings) w.tree s.1.tree)
      (fun _ s => ∃ pre b, ConfigStopped M f c s.2 pre b s.1.tree ∧
        Unlinked (bindingsTo f pre) w.tree s.1.tree) False
      (rmBindingsTo M.kernel f (w, c)) := by
  rw [rmBindingsTo, self_bind_apply]
  dsimp only
  -- what has been walked over, and what is still to come
  refine (Ends.forEachDone (fun done s => ∃ pre post, c.bindings = pre ++ post ∧ bindingsTo f pre = done ∧
    s.2 = { c with bindings := bindingsElse f pre ++ post } ∧ Unlinked done w.tree s.1.tree) ?_
    ⟨[], c.bindings, rfl, rfl, rfl, Unlinked.nil _⟩).mono ?_ fun _ _ h => h
  · rintro done b ⟨w', c'⟩ hdone ⟨pre, post, hl, hpre, hconf, hlinks⟩
    dsimp only at hconf hlinks
    obtain ⟨mid, post', rfl, hb, hmid⟩ := next_of_prefix hdone hl hpre
    have htarget : b.target = f := of_decide_eq_true hb
    have hto : bindingsTo f (pre ++ mid) = done := by
      have hnone : mid.filter (fun b => decide (b.target = f)) = [] :=
        List.filter_eq_nil_iff.mpr fun x hx => by simpa using hmid x hx
      rw [bindingsTo, List.filter_append, hnone, List.append_nil]
      exact hpre
    have helse : bindingsElse f (pre ++ mid) = bindingsElse f pre ++ mid := by
      have hall : mid.filter (fun b => decide (b.target ≠ f)) = mid :=
        List.filter_eq_self.mpr fun x hx => by simpa using hmid x hx
      rw [bindingsElse, List.filter_append, hall]
      rfl
    have hmem : b ∈ c'.bindings := by
      rw [hconf]
      simp
    refine (usbgRmBinding_ends (w := w') hmem).mono ?_ ?_
    · rintro - s ⟨hconf', hlinks'⟩
      refine ⟨pre ++ mid ++ [b], post', by rw [hl]; simp, ?_, ?_, hlinks.append hlinks'⟩
      · rw [← hto]
        simp [bindingsTo, htarget]
      · rw [hconf', hconf]
        dsimp only
        rw [bindingsElse_eq, erase_of_first (p := fun b : Binding => decide (b.target = f)) hb hmid, ← bindingsElse_eq]
        simp [bindingsElse, htarget]
    · rintro e s ⟨hconf', ht, hwhy⟩
      refine ⟨pre ++ mid, b, ⟨⟨post', by rw [hl]; simp, ?_⟩, htarget, by rw [ht]; exact hwhy⟩, ?_⟩
      · rw [hconf', hconf, helse, List.append_assoc]
      · rw [hto, ht]
        exact hlinks
  · rintro - s ⟨pre, post, hl, hpre, hconf, hlinks⟩
    -- nothing to this function is left
    have hnone : bindingsTo f post = [] := by
      have hlen := congrArg List.length hpre
      rw [hl, bindingsTo, List.filter_append, List.length_append] at hlen
      exact List.eq_nil_of_length_eq_zero (show (post.filter fun b => b.target = f).length = 0 by omega)
    have hall : bindingsElse f post = post := by
      refine List.filter_eq_self.mpr fun x hx => ?_
      have := List.filter_eq_nil_iff.mp hnone x hx
      simpa using this
    refine ⟨?_, hlinks⟩
    have helse : bindingsElse f c.bindings = bindingsElse f pre ++ post := by
      rw [hl, bindingsElse, List.filter_append]
      exact congrArg (bindingsElse f pre ++ ·) hall
    rw [helse]
    exact hconf

/-! ## All configurations -/

/-- The configuration without its bindings to the function. -/
def Config.unbound (f : Addr) (c : Config) : Config := { c with bindings := bindingsElse f c.bindings }

/-- The bindings to the function in the configurations, in their order. -/
def allBindingsTo (f : Addr) (cs : List Config) : List Binding := cs.flatMap fun c => bindingsTo f c.bindings

/-- The walk over the configurations has stopped at a binding to the function: exactly those before it,
in this and in the earlier configurations, are gone, from the lists and from the tree. -/
def StoppedAtBinding (M : Machine) (f : Addr) (g g' : Gadget) (T T' : Tree) : Prop :=
  ∃ before c after c' pre b, g.configs = before ++ c :: after ∧ ConfigStopped M f c c' pre b T' ∧
    g' = { g with configs := before.map (Config.unbound f) ++ c' :: after } ∧
      Unlinked (allBindingsTo f before ++ bindingsTo f pre) T T'

/-- Putting a configuration back between the others. -/
lemma setConfig_between {g : Gadget} {before after : List Config} {c c' : Config}
    (hg : g.configs = before ++ c :: after) (hc : c'.addr = c.addr) (hnodup : KeysNodup Config.addr g.configs) :
    g.setConfig c' = { g with configs := before ++ c' :: after } := by
  rw [KeysNodup, hg, List.map_append, List.map_cons, List.nodup_append] at hnodup
  obtain ⟨-, hafter, hdisjoint⟩ := hnodup
  have hbefore : ∀ d ∈ before, d.addr ≠ c'.addr := fun d hd =>
    hc ▸ hdisjoint _ (List.mem_map_of_mem hd) _ (List.mem_cons_self ..)
  have hbehind : ∀ d ∈ after, d.addr ≠ c'.addr := fun d hd h =>
    (List.nodup_cons.mp hafter).1 (hc ▸ h ▸ List.mem_map_of_mem hd)
  rw [Gadget.setConfig, hg, List.map_append, List.map_cons, if_pos hc.symm]
  congr 2
  · exact (List.map_congr_left fun d hd => if_neg (hbefore d hd)).trans (List.map_id _)
  · congr 1
    exact (List.map_congr_left fun d hd => if_neg (hbehind d hd)).trans (List.map_id _)

lemma map_unbound_addr (f : Addr) (cs : List Config) :
    (cs.map (Config.unbound f)).map Config.addr = cs.map Config.addr := by
  rw [List.map_map]
  rfl

/-- The loop over the configurations. -/
lemma rmAllBindingsTo_ends (g : Gadget) (hnodup : KeysNodup Config.addr g.configs) :
    Ends (fun _ s => s.2 = { g with configs := g.configs.map (Config.unbound f) } ∧
        Unlinked (allBindingsTo f g.configs) w.tree s.1.tree)
      (fun _ s => StoppedAtBinding M f g s.2 w.tree s.1.tree) False
      (forEach (fun c : Config => onConfig c.addr (rmBindingsTo M.kernel f)) g.configs (w, g)) := by
  -- the configurations that are done have no binding to the function any more, the rest is as before
  refine (Ends.forEachDone (s := (w, g)) (fun (done : List Config) (s : World Fs × Gadget) => ∃ rest,
    g.configs = done ++ rest ∧ s.2 = { g with configs := done.map (Config.unbound f) ++ rest } ∧
      Unlinked (allBindingsTo f done) w.tree s.1.tree) ?_ ⟨g.configs, rfl, rfl, Unlinked.nil w.tree⟩).mono ?_
    fun _ _ h => h
  · rintro done c ⟨w', g'⟩ ⟨rest', hrest'⟩ ⟨rest, hg, hgad, hlinks⟩
    dsimp only at hgad hlinks
    have hrest : rest = c :: rest' := by
      rw [hg, List.append_assoc] at hrest'
      exact (List.append_cancel_left hrest').symm
    subst hrest
    have hconfigs : g'.configs = done.map (Config.unbound f) ++ c :: rest' := by rw [hgad]
    have hnodup' : KeysNodup Config.addr g'.configs := by
      rw [KeysNodup, hconfigs, List.map_append, map_unbound_addr, ← List.map_append, ← hg]
      exact hnodup
    have hfind : g'.config? c.addr = some c :=
      (find?_key_eq_some hnodup').mpr ⟨by rw [hconfigs]; simp, rfl⟩
    refine ends_onConfig hfind ((rmBindingsTo_ends c).mono ?_ ?_)
    · rintro - ⟨w'', c'⟩ ⟨hconf, hlinks'⟩
      dsimp only at hconf hlinks' ⊢
      refine ⟨rest', by rw [hg]; simp, ?_, ?_⟩
      · rw [setConfig_between hconfigs (by rw [hconf]) hnodup', hgad, hconf]
        simp [Config.unbound]
      · rw [allBindingsTo, List.flatMap_append]
        refine hlinks.append ?_
        simpa using hlinks'
    · rintro e ⟨w'', c'⟩ ⟨pre, b, hstopped, hlinks'⟩
      dsimp only at hstopped hlinks' ⊢
      obtain ⟨post, -, hconf⟩ := hstopped.at_binding
      refine ⟨done, c, rest', c', pre, b, hg, hstopped, ?_, hlinks.append hlinks'⟩
      rw [setConfig_between hconfigs (by rw [hconf]) hnodup', hgad]
  · rintro - s ⟨rest, hg, hgad, hlinks⟩
    have hrest : rest = [] := by simpa using hg
    subst hrest
    rw [List.append_nil] at hgad
    exact ⟨hgad, hlinks⟩

/-! ## The function -/

/-- What a recursive `usbg_rm_function` leaves of the gadget when it succeeds. -/
def Gadget.withoutFunction (f : Addr) (g : Gadget) : Gadget :=
  { g with
    configs := g.configs.map (Config.unbound f)
    functions := g.functions.filter (·.addr ≠ f) }

/-- All bindings to the function are gone, but the function itself is still there, with what its type keeps
in it perhaps changed. -/
def UnboundOnly (f : Addr) (func : Func) (g g' : Gadget) : Prop :=
  ∃ func', func'.core = func.core ∧
    g' = ({ g with configs := g.configs.map (Config.unbound f) } : Gadget).setFunction func'

/-- Putting a function back as it was. -/
lemma setFunction_self {g : Gadget} {func : Func} (hfunc : func ∈ g.functions)
    (hnodup : KeysNodup Func.addr g.functions) : g.setFunction func = g := by
  have hsame : ∀ f ∈ g.functions, (if f.addr = func.addr then func else f) = f := by
    intro f hf
    by_cases haddr : f.addr = func.addr
    · rw [if_pos haddr, hnodup.eq hf hfunc haddr]
    · rw [if_neg haddr]
  rw [Gadget.setFunction, (List.map_congr_left hsame).trans (List.map_id' _)]

/-- Taking the function out of the list, whatever has happened to it. -/
lemma filter_setFunction (g : Gadget) (func : Func) :
    (g.setFunction func).functions.filter (·.addr ≠ func.addr) = g.functions.filter (·.addr ≠ func.addr) := by
  rw [Gadget.setFunction]
  dsimp only
  induction g.functions with
  | nil => rfl
  | cons f fs ih =>
    by_cases haddr : f.addr = func.addr
    · simp only [List.map_cons, if_pos haddr]
      rw [List.filter_cons_of_neg (by simp), List.filter_cons_of_neg (by simp [haddr]), ih]
    · simp only [List.map_cons, if_neg haddr]
      rw [List.filter_cons_of_pos (by simp [haddr]), List.filter_cons_of_pos (by simp [haddr]), ih]

/-- The callback of a type changes only what the function keeps for itself. -/
lemma removeCallback_ends {opts : RmOpts} {g : Gadget} {f : Addr} {func : Func}
    (hfunc : g.function? f = some func) (hnodup : KeysNodup Func.addr g.functions) :
    Ends (fun _ s => ∃ func', func'.core = func.core ∧ s.2 = g.setFunction func')
      (fun _ s => ∃ func', func'.core = func.core ∧ s.2 = g.setFunction func') (¬ UnitsReadable M w.tree func)
      (whenSome (fun remove => onFunction f (remove opts)) (functionOps M.kernel func.type).remove (w, g)) := by
  cases hremove : (functionOps M.kernel func.type).remove with
  | none => exact ⟨func, rfl, (setFunction_self (find?_key_mem hfunc) hnodup).symm⟩
  | some remove =>
    rw [whenSome_some]
    have hkeeps := (functionOps_stable M.kernel).remove (stable_next M.kernel 0).toStableUpIn func.core List.nil_prefix
      func.type remove opts hremove (w, func) ⟨Nat.zero_le _, rfl⟩
    refine ends_onFunction hfunc (Ends.intro ?_ ?_ ?_)
    · intro _ t ht
      rw [ht] at hkeeps
      exact ⟨t.2, hkeeps.2, rfl⟩
    · intro _ t ht
      rw [ht] at hkeeps
      exact ⟨t.2, hkeeps.2, rfl⟩
    · intro t ht hread
      -- only two types have a callback
      cases htype : func.type <;> rw [htype] at hremove <;> cases hremove
      · exact msRemove_defined (hread htype) opts (congrArg Prod.fst ht)
      · exact absurd (congrArg Prod.fst ht) (defined_uvcRemove M.kernel opts (w, func))

/-- The walk over the bindings, which a recursive `usbg_rm_function` begins with. -/
def rmBindings (K : Kernel Fs) (f : Addr) (g : Gadget) : On Fs Gadget Unit :=
  forEach (fun c : Config => onConfig c.addr (rmBindingsTo K f)) g.configs

/-- No unlink of the walk over the bindings has failed, and the links of all of them are gone after it. -/
def AllUnlinked (M : Machine) (w : World Fs) (g : Gadget) (f : Addr) : Prop :=
  ∃ s, rmBindings M.kernel f g (w, g) = (.ok (), s) ∧ Unlinked (allBindingsTo f g.configs) w.tree s.1.tree

/-- A recursive `usbg_rm_function` comes to an end.  One that succeeds has removed the function and the bindings
to it, and nothing else of the gadget; one that fails has stopped at a binding that could not be unlinked, or
has removed all bindings to the function and left it in the list. -/
def UnbindsExactly (M : Machine) (w : World Fs) (g : Gadget) (f : Addr) (func : Func) : Prop :=
  Ends (fun _ s => AllUnlinked M w g f ∧ s.2 = g.withoutFunction f)
    (fun _ s => StoppedAtBinding M f g s.2 w.tree s.1.tree ∨ AllUnlinked M w g f ∧ UnboundOnly f func g s.2)
    False (usbgRmFunction M.kernel (functionOps M.kernel) f true (w, g))

/-- `usbg_rm_function` with the flag: the walk over the bindings, the callback, the directory, the list. -/
lemma usbgRmFunction_recursive {K : Kernel Fs} {g : Gadget} {f : Addr} {func : Func}
    (hfunc : g.function? f = some func) :
    usbgRmFunction K (functionOps K) f true (w, g) =
      (rmBindings K f g >>= fun _ =>
        whenSome (fun remove => onFunction f (remove true)) (functionOps K func.type).remove >>= fun _ =>
          io (usbgRmDir K func.path func.name) >>= fun _ =>
            update fun g => { g with functions := g.functions.filter (·.addr ≠ f) }) (w, g) := by
  rw [usbgRmFunction, self_bind_apply]
  dsimp only
  rw [hfunc, deref_some, pure_bind, when_of rfl]
  rfl

lemma unbindsExactly_of_readable {g : Gadget} {f : Addr} {func : Func} (hfunc : g.function? f = some func)
    (hconfigs : KeysNodup Config.addr g.configs) (hfunctions : KeysNodup Func.addr g.functions)
    (hread : AllUnlinked M w g f → UnitsReadable M w.tree func) : UnbindsExactly M w g f func := by
  have haddr : func.addr = f := find?_key_key hfunc
  rw [UnbindsExactly, usbgRmFunction_recursive hfunc]
  refine Ends.bind ((rmAllBindingsTo_ends g hconfigs).run.mono (fun _ _ h => h) fun _ _ h => .inl h) ?_
  rintro ⟨⟩ ⟨w₁, g₁⟩ ⟨⟨hgad, hlinks⟩, hrun⟩
  dsimp only at hgad hlinks
  have hall : AllUnlinked M w g f := ⟨_, hrun, hlinks⟩
  have hread₁ : UnitsReadable M w₁.tree func := fun htype =>
    (hread hall htype).shrinks hlinks.shrinks rfl id
  have hfunc₁ : g₁.function? f = some func := by
    rw [hgad]
    exact hfunc
  have hunbound : ∀ s : World Fs × Gadget, (∃ func', func'.core = func.core ∧ s.2 = g₁.setFunction func') →
      UnboundOnly f func g s.2 := by
    rintro s ⟨func', hcore, hs⟩
    exact ⟨func', hcore, by rw [hs, hgad]⟩
  refine Ends.bind ((removeCallback_ends hfunc₁ (by rw [hgad]; exact hfunctions)).mono_undef (fun _ _ h => h)
    (fun _ s h => .inr ⟨hall, hunbound s h⟩) fun h => h hread₁) ?_
  rintro - ⟨w₂, g₂⟩ ⟨func', hcore, hgad₂⟩
  dsimp only at hgad₂
  have haddr' : func'.addr = f := (congrArg Func.Core.addr hcore).trans haddr
  refine Ends.bind (R := fun _ s => s.2 = g₂) (ends_io (ends_usbgRmDir (fun _ _ _ => rfl) fun e w' _ _ _ =>
    .inr ⟨hall, hunbound _ ⟨func', hcore, hgad₂⟩⟩)) ?_
  rintro - ⟨w₃, g₃⟩ hgad₃
  dsimp only at hgad₃
  rw [update_apply]
  refine ⟨hall, ?_⟩
  show ({ g₃ with functions := g₃.functions.filter (·.addr ≠ f) } : Gadget) = _
  rw [hgad₃, hgad₂, ← haddr', filter_setFunction, haddr', hgad]
  rfl

/-- What the links of the bindings do not stand among is as readable as after the walk. -/
lemma readable_of_unbindsExactly {g : Gadget} {f : Addr} {func : Func} (hfunc : g.function? f = some func)
    (hconfigs : KeysNodup Config.addr g.configs) (hsteady : SteadyScan M func.dir)
    (haway : ∀ b ∈ allBindingsTo f g.configs, b.link.dropLast ≠ func.dir.resolve)
    (h : UnbindsExactly M w g f func) (hall : AllUnlinked M w g f) : UnitsReadable M w.tree func := by
  obtain ⟨⟨w₁, g₁⟩, hrun, hlinks⟩ := hall
  intro htype hinit hfits hlisted hdir name n hn hsel
  have hfunc₁ : g₁.function? f = some func := by
    have hends := rmAllBindingsTo_ends (M := M) (w := w) (f := f) g hconfigs
    rw [show forEach _ _ _ = _ from hrun] at hends
    rw [show g₁ = _ from hends.1]
    exact hfunc
  have hmask : (getLunMask M.kernel (w₁, func)).1 ≠ .undef := by
    intro hundef
    rw [UnbindsExactly, usbgRmFunction_recursive hfunc, bind_ok hrun] at h
    refine h.defined ?_
    obtain ⟨t, ht⟩ : ∃ t, getLunMask M.kernel (w₁, func) = (.undef, t) := ⟨_, Prod.ext hundef rfl⟩
    have hremove : (functionOps M.kernel func.type).remove = some (msRemove M.kernel) := by rw [htype]; rfl
    rw [hremove, whenSome_some]
    have hcallback : onFunction f (msRemove M.kernel true) (w₁, g₁) = (.undef, (t.1, g₁.setFunction t.2)) := by
      rw [onFunction, zoom_some (t := (w₁, func)) (by rw [hfunc₁]; rfl), msRemove, bind_undef ht]
    rw [bind_undef hcallback]
  -- the entry is still there after the walk
  have hkept : w₁.tree.get (func.dir.resolve ++ [name]) = some n := by
    rw [hlinks.get, if_neg, hn]
    intro hmem
    obtain ⟨b, hb, hlink⟩ := List.mem_map.mp hmem
    exact haway b hb (by rw [hlink, List.dropLast_concat])
  obtain ⟨m, hm⟩ := hlisted
  exact namesInRange_of_getLunMask hinit hfits (hsteady _ m ▸ hm) (hlinks.isDir hdir) hmask name n hkept hsel

/-- A recursive `usbg_rm_function` removes the bindings to its function and nothing else, if the units of a mass
storage function can be read, or the walk over the bindings does not come to its end; and, against a kernel
that answers scans of the directory the same way each time, only then. -/
theorem usbgRmFunction_unbinds_iff (M : Machine) (w : World Fs) (g : Gadget) (f : Addr) (func : Func)
    (hfunc : g.function? f = some func) (hconfigs : KeysNodup Config.addr g.configs)
    (hfunctions : KeysNodup Func.addr g.functions) :
    ((AllUnlinked M w g f → UnitsReadable M w.tree func) → UnbindsExactly M w g f func) ∧
      (SteadyScan M func.dir → (∀ b ∈ allBindingsTo f g.configs, b.link.dropLast ≠ func.dir.resolve) →
        UnbindsExactly M w g f func → AllUnlinked M w g f → UnitsReadable M w.tree func) :=
  ⟨unbindsExactly_of_readable hfunc hconfigs hfunctions, readable_of_unbindsExactly hfunc hconfigs⟩

/-! ## An example -/

/-- A configuration with its address, and bindings with these names and targets. -/
def configAt (a : Addr) (label : CStr) (id : ℤ) (bs : List (CStr × Addr)) : Config :=
  let c := Config.allocated a (plainGadget.dir ++ [configsDir]) label id
  { c with bindings := bs.map fun b => { name := b.1, path := c.dir, target := b.2 } }

/-- Two functions, both bound in one configuration, and one of them in another. -/
def twiceBound : Gadget :=
  { plainGadget with
    configs :=
      [configAt 3 "a".toList 1 [("k".toList, 0), ("l".toList, 2), ("m".toList, 0)],
        configAt 4 "b".toList 2 [("k".toList, 0)]]
    functions := [.allocated 2 (plainGadget.dir ++ [functionsDir]) .acm "0".toList, unitsFunc] }

/-- Their directories, with entries of these names in that of the mass storage function, and the links of the
bindings. -/
def twiceBoundTree (units : List CStr) : Tree :=
  FileTree.addAll .empty
    (twiceBound.functions.map (fun f => (f.dir, .dir true)) ++
      units.map (fun name => (unitsDir ++ [name], .dir (name ≠ lunDir 0))) ++
      twiceBound.configs.flatMap fun c => c.bindings.map fun b =>
        (b.link, .link [] (((twiceBound.function? b.target).map Func.dir).getD [])))

lemma maskSound_of_entries {T : Tree} {func : Func} (hclean : func.dir.Clean)
    (h : ∀ e ∈ T.entries, e.1.dropLast = func.dir → scanIndex "lun.".toList (e.1.getLastD []) = .mismatch ∨
      ∃ i < maxLuns, scanIndex "lun.".toList (e.1.getLastD []) = .index i) : MaskSound M T func := by
  intro _ _ _ _ name n hn _
  rw [hclean.2] at hn
  simpa using h (func.dir ++ [name], n) (FileTree.get_eq_some.mp hn) (by simp)

/-- The mass storage function, with two units, is removed. -/
theorem usbgRmFunction_unbinds_bound :
    UnbindsExactly willing (worldOf (twiceBoundTree [lunDir 0, lunDir 1])) twiceBound 0 unitsFunc ∧
      (usbgRmFunction willing.kernel (functionOps willing.kernel) 0 true
        (worldOf (twiceBoundTree [lunDir 0, lunDir 1]), twiceBound)).1 = .ok () :=
  ⟨(usbgRmFunction_unbinds_iff willing (worldOf (twiceBoundTree [lunDir 0, lunDir 1])) twiceBound 0 unitsFunc rfl
      (by decide +kernel) (by decide +kernel)).1 fun _ _ =>
        maskSound_of_entries ⟨by decide, by decide +kernel⟩ (by rw [tree_worldOf]; decide +kernel),
    by decide +kernel⟩

/-- The kernel takes 017 for the number 15 of a unit, and `sscanf` for 17. -/
theorem usbgRmFunction_unbinds_fails :
    ¬ UnbindsExactly willing (worldOf (twiceBoundTree [lunDir 0, "lun.017".toList])) twiceBound 0 unitsFunc := by
  intro h
  have hrun : (usbgRmFunction willing.kernel (functionOps willing.kernel) 0 true
      (worldOf (twiceBoundTree [lunDir 0, "lun.017".toList]), twiceBound)).1 = .undef := by decide +kernel
  exact h.defined hrun

end Libusbgx
