import Libusbgx.Mirror.Steps
import Libusbgx.Undo.Creation

/-!
# The calls on a gadget

Each call that changes the lists of a gadget or its directory is a sequence of the steps, with work elsewhere
in between.  Wherever the kernel refuses something, the call ends with the lists and the directory in step; only a
constructor can leave a directory behind.
-/

namespace Libusbgx

open Prog Machine

variable {M : Machine} {cfg : CStr} {N : Naming} {T T' : Tree} {w w' w₀ : World Fs} {g g' g₀ : Gadget} {d : Path}
  {tidy same : Prop} {α : Type} {func : Func}

/-! ## Calls in sequence -/

/-- However a call on the gadget ends, it has taken steps. -/
def Steps (cfg : CStr) (N : Naming) (tidy same : Prop) (m : On Fs Gadget α) (w : World Fs) (g : Gadget) : Prop :=
  Ends (fun _ => MirrorStep cfg N tidy same w g) (fun _ => MirrorStep cfg N tidy same w g) True (m (w, g))

/-- Calls that take steps can be put together. -/
lemma upholds_of_steps {m : On Fs Gadget α} (h : ∀ w g, GadgetMirrored cfg N w g → Steps cfg N tidy same m w g) :
    Upholds (MirrorStep cfg N tidy same w₀ g₀) m := by
  rintro ⟨w, g⟩ hs
  exact (h w g hs.mirrored).mono (fun _ _ ht => hs.seq ht) fun _ _ ht => hs.seq ht

/-- Work that leaves the places alone. -/
lemma steps_io {m : Io Fs α} (h : GadgetMirrored cfg N w g) (hm : Keeps (Beside cfg g.dir w) m) :
    Steps cfg N True True (io m) w g :=
  ends_io ((Upholds.of_keeps hm w (.refl h.shaped g.dir)).mono (fun _ _ ht => .of_samePlaces h ht.within ht.places)
    fun _ _ ht => .of_samePlaces h ht.within ht.places)

/-! ## Constructors -/

/-- Nothing is at the path where a directory can be made, nor below it. -/
lemma made_of_mkdir (h : Shaped cfg w.tree) {p : Path} (hp : p ≠ []) (hok : M.mkdir w.tree p = .ok T') (r : Path) :
    w.tree.made (p ++ r) = none := by
  obtain ⟨hfree, -⟩ := mkdir_eq_ok.mp hok
  by_cases hr : r = []
  · rw [hr, List.append_nil]
    exact FileTree.made_of_get_none hfree
  · refine FileTree.made_of_get_none (h.parents.get_of_not_isDir (fun hdir => ?_) hp (List.prefix_append ..) ?_)
    · rw [FileTree.IsDir, hfree] at hdir
      cases hdir
    · simpa using hr

/-- A clean-up that does no more than to call `rmdir` for the directory `p`, by a path below `d`. -/
def OnlyRmdir (M : Machine) (d p : Path) (cleanUp : Io Fs Unit) : Prop :=
  ∀ w, (cleanUp w).2 = w ∨
    ∃ path : Path, path.resolve = p ∧ d <+: path ∧ (cleanUp w).2 = (call M.kernel (.rmdir path) w).2

/-- The directory for a new object has been made in the directory `k` of a gadget.  There is work in it, and then the
object goes into its list; when the work fails, the directory may stay. -/
lemma setUp_mirror {β : Type} {k x : CStr} {setUp : Io Fs β} {cleanUp : Io Fs Unit} {finish : β → On Fs Gadget α}
    (tidy : Prop) (P : β → Prop) (hM : Configfs M cfg) (h : GadgetMirrored cfg N w g) (hk : k ≠ osDescDir)
    (hfree : w.tree.made (g.dir ++ [k, x]) = none) (hin : Within cfg g.dir w w')
    (hset : PlaceSet (g.dir ++ [k, x]) (some (.dir true)) w.tree w'.tree)
    (hsetUp : Ends (fun b t => Beside cfg g.dir w' t ∧ P b) (fun _ t => Beside cfg g.dir w' t ∧ ¬ tidy) True (setUp w'))
    (hclean : OnlyRmdir M g.dir (g.dir ++ [k, x]) cleanUp)
    (hfinish : ∀ b t, Within cfg g.dir w t → PlaceSet (g.dir ++ [k, x]) (some (.dir true)) w.tree t.tree →
      w'.next ≤ t.next → P b → Ends (fun _ => MirrorStep cfg N True True w g) (fun _ _ => False) True
        (finish b (t, g))) :
    Ends (fun _ => MirrorStep cfg N True True w g)
      (fun _ t => MirrorStep cfg N (tidy ∨ t.1.tree.made (g.dir ++ [k, x]) = none) True w g t) True
      ((io (onFail setUp cleanUp) >>= finish) (w', g)) := by
  refine Ends.bind (R := fun b t => t.2 = g ∧ Beside cfg g.dir w' t.1 ∧ P b) (ends_io (Ends.onFail
    (hsetUp.mono (fun _ _ ht => ⟨rfl, ht⟩) fun _ _ ht => ht) fun e t ht => ?_)) ?_
  · obtain ⟨hbeside, hnot⟩ := ht
    have hstray : MirrorStep cfg N ((cleanUp t).2.tree.made (g.dir ++ [k, x]) = none) True w g ((cleanUp t).2, g) := by
      rcases hclean t with heq | ⟨path, hpath, hpre, heq⟩
      · rw [heq]
        exact .stray_or h (hin.trans hbeside.within) (hset.same hbeside.places) hk hfree
      · rw [heq]
        have hin' := (stable_within hM h.clean t).keeps_call (c := .rmdir path) hpre t (.refl hbeside.within.shaped _)
        have hset' : PlaceSet path.resolve _ t.tree (call M.kernel (.rmdir path) t).2.tree :=
          (kernel_change M (.rmdir path) t).placeSet
        rw [hpath] at hset'
        exact .stray_or h ((hin.trans hbeside.within).trans hin') ((hset.same hbeside.places).trans hset') hk hfree
    have hleft : ∀ t', (cleanUp t).2 = t' →
        MirrorStep cfg N (tidy ∨ t'.tree.made (g.dir ++ [k, x]) = none) True w g (t', g) := by
      rintro t' rfl
      exact hstray.weaken (fun hor => hor.resolve_left hnot) fun h => h
    exact Ends.intro (fun _ _ hr => hleft _ (by rw [hr])) (fun _ _ hr => hleft _ (by rw [hr])) fun _ _ => trivial
  · rintro b ⟨t, g₁⟩ ⟨hg, hbeside, hP⟩
    obtain rfl : g = g₁ := hg.symm
    exact (hfinish b t (hin.trans hbeside.within) (hset.same hbeside.places) hbeside.within.next hP).mono
      (fun _ _ ht => ht) fun _ _ ht => ht.elim

/-- The directory of a new object, for which an address has been taken. -/
lemma mkdir_mirror {k x : CStr} (hM : Configfs M cfg) (h : GadgetMirrored cfg N w g) (hk : k ≠ []) (hx : x ≠ []) :
    Ends (fun _ t => t.2 = g ∧ Within cfg g.dir { w with next := w.next + 1 } t.1 ∧
        (∀ r, w.tree.made (g.dir ++ [k, x] ++ r) = none) ∧
        PlaceSet (g.dir ++ [k, x]) (some (.dir true)) w.tree t.1.tree)
      (fun _ => MirrorStep cfg N True True w g) True
      (io (call M.kernel (.mkdir (g.dir ++ [k, x]))) ({ w with next := w.next + 1 }, g)) := by
  have hclean : (g.dir ++ [k, x]).Clean := h.clean.append (by simp [hk, hx])
  have hnext : MirrorStep cfg N True True w g ({ w with next := w.next + 1 }, g) := .of_eq h rfl (Nat.le_succ _)
  refine ends_io ((ends_mkdir_within hM h.clean hnext.mirrored.shaped (List.prefix_append ..)).mono_undef
    (fun _ w' ht => ?_) (fun _ w' ht => ?_) False.elim)
  · rw [hclean.2] at ht
    exact ⟨rfl, ht.1.1, made_of_mkdir h.shaped hclean.1 ht.1.2, ht.2⟩
  · exact hnext.seq (.of_eq hnext.mirrored ht.2 ht.1.next)

section Constructors

variable {label : Option CStr} {id : ℤ} {attrs : Option ConfigAttrs} {strs : Option ConfigStrs}

/-- Files of a configuration and directories for its languages are in none of the places. -/
lemma keeps_beside_usbgSetConfigAttrs (hM : Configfs M cfg) (hd : d.Clean) {c : Config} {attrs : ConfigAttrs}
    (hdir : d <+: c.path ++ [c.name]) : Keeps (Beside cfg d w) (usbgSetConfigAttrs M.kernel c attrs) :=
  .bind (keeps_beside_usbgWriteBuf hM hd (below_cons hdir _)) fun _ =>
    keeps_beside_usbgWriteBuf hM hd (below_cons hdir _)

lemma keeps_beside_usbgSetConfigString (hM : Configfs M cfg) (hd : d.Clean) (hlen : d.length = 3) {c : Config}
    {lang : ℤ}
    {str : Option CStr} (hdir : c.path ++ [c.name] = d ++ [configsDir, c.name]) (hname : c.name ≠ []) :
    Keeps (Beside cfg d w) (usbgSetConfigString M.kernel c lang str) := by
  have hlang : c.path ++ [c.name, stringsDir, langDir lang] = d ++ [configsDir, c.name, stringsDir, langDir lang] := by
    simpa using congrArg (· ++ [stringsDir, langDir lang]) hdir
  have hclean : (d ++ [configsDir, c.name, stringsDir, langDir lang]).Clean :=
    hd.append (by simp [hname, langDir])
  have hst := stable_beside hM hd hclean (List.prefix_append ..) (fun r => by
    rw [List.append_assoc, ← hlen, List.drop_left]
    cases r <;> exact id) w
  cases str with
  | none => exact .fail _
  | some str =>
    refine .bind (.require _) fun _ => ?_
    rw [hlang]
    exact .bind (hst.keeps_usbgCheckDir List.prefix_rfl) fun _ => hst.keeps_usbgWriteString (below List.prefix_rfl _)

lemma keeps_beside_configSetUp (hM : Configfs M cfg) (hd : d.Clean) (hlen : d.length = 3) {c : Config}
    (hdir : c.path ++ [c.name] = d ++ [configsDir, c.name]) (hname : c.name ≠ []) :
    Keeps (Beside cfg d w) (configSetUp M.kernel attrs strs c) :=
  .bind (.whenSome fun _ _ => keeps_beside_usbgSetConfigAttrs hM hd (hdir ▸ List.prefix_append ..)) fun _ =>
    .whenSome fun _ _ => keeps_beside_usbgSetConfigString hM hd hlen hdir hname

/-- The directory of a new configuration. -/
def configDir (g : Gadget) (id : ℤ) (label : Option CStr) : Path :=
  g.dir ++ [configsDir, configName (label.getD defaultConfigLabel) id]

/-- `usbg_create_config` -/
lemma usbgCreateConfig_mirror (hM : Configfs M cfg) (h : GadgetMirrored cfg N w g)
    (hlabel : N.label (label.getD defaultConfigLabel)) :
    Ends (fun _ => MirrorStep cfg N True True w g)
      (fun _ t => MirrorStep cfg N (attrs = none ∧ strs = none ∨ t.1.tree.made (configDir g id label) =
        w.tree.made (configDir g id label)) True w g t) True
      (usbgCreateConfig M.kernel id label attrs strs (w, g)) := by
  have hname : (newConfig g id label w.next).name ≠ [] := by simp [newConfig, configName]
  have hdir : (newConfig g id label w.next).path ++ [(newConfig g id label w.next).name] =
      g.dir ++ [configsDir, (newConfig g id label w.next).name] := by simp [newConfig, Gadget.dir]
  rw [usbgCreateConfig_eq, makeConfigDir]
  simp only [Prog.bind_assoc]
  refine Ends.require_bind (fun hid => ?_) fun _ => (MirrorStep.refl h).any
  rw [self_bind_apply]
  refine Ends.require_bind (fun _ => ?_) fun _ => (MirrorStep.refl h).any
  refine Ends.require_bind (fun _ => ?_) fun _ => (MirrorStep.refl h).any
  have halloc : usbgAllocateConfig (g.path ++ [g.name, configsDir]) (label.getD defaultConfigLabel) id w =
    (.ok (newConfig g id label w.next), { w with next := w.next + 1 }) := rfl
  refine Ends.of_eq (bind_ok (io_ok halloc)) ?_
  have hnext : MirrorStep cfg N True True w g ({ w with next := w.next + 1 }, g) := .of_eq h rfl (Nat.le_succ _)
  refine Ends.require_bind (fun hfits => ?_) fun _ => hnext.any
  rw [show g.path ++ [g.name, configsDir] ++ [(newConfig g id label w.next).name] =
      g.dir ++ [configsDir, (newConfig g id label w.next).name] from hdir] at hfits ⊢
  refine Ends.bind ((mkdir_mirror hM h configsDir_ne_nil hname).mono (fun _ _ ht => ht) fun _ _ ht => ht.any) ?_
  rintro - ⟨w₁, g₁⟩ ⟨hg, hin, hfree, hset⟩
  obtain rfl : g = g₁ := hg.symm
  rw [Prog.pure_bind]
  have hbefore : w.tree.made (g.dir ++ [configsDir, (newConfig g id label w.next).name]) = none := by
    simpa using hfree []
  refine (setUp_mirror (attrs = none ∧ strs = none) (fun _ => True) hM h configsDir_ne_osDescDir hbefore
    (hnext.within.trans hin) hset ?_ ?_ ?_).mono (fun _ _ ht => ht)
    fun _ _ ht => ht.weaken (fun hor => hor.imp_right fun he => he.trans hbefore) fun h => h
  · -- without attributes and strings there is nothing that could fail
    by_cases hnone : attrs = none ∧ strs = none
    · obtain ⟨rfl, rfl⟩ := hnone
      exact ⟨.refl hin.shaped _, trivial⟩
    · exact (Upholds.of_keeps (keeps_beside_configSetUp hM h.clean h.length_dir hdir hname) w₁
        (.refl hin.shaped _)).mono
        (fun _ _ ht => ⟨ht, trivial⟩) fun _ _ ht => ⟨ht, hnone⟩
  · intro t
    refine .inr ⟨_, ?_, hdir ▸ List.prefix_append .., rfl⟩
    rw [hdir]
    exact (h.clean.append (by simp [hname])).2
  · intro _ t hin' hset' hnext' _
    exact .insertConfig h hin' hset' (by simpa using hfree []) (fun x => by simpa using hfree [x])
      (by simp [newConfig, Gadget.dir]) hfits rfl hid hlabel rfl (le_refl _) (Nat.lt_of_succ_le (hin.next.trans hnext'))

end Constructors

section Functions

variable {type : FunctionType} {inst : CStr} {attrs : Option FunctionAttrs}

/-- What is done in the directory of a new function stays in it. -/
lemma ends_functionSetUp (hM : Configfs M cfg) (hp : (d ++ [functionsDir, func.name]).Clean) (hlen : d.length = 3)
    (hdir : func.core.dir = d ++ [functionsDir, func.name]) (h : Shaped cfg w.tree)
    (hmade : w.tree.made (d ++ [functionsDir, func.name]) = some (.dir true)) :
    Ends (fun r t => Beside cfg d w t ∧ r.2.core = func.core) (fun _ t => Beside cfg d w t ∧ ¬ attrs = none) True
      (functionSetUp (functionOps M.kernel) attrs func w) := by
  cases attrs with
  | none => exact ⟨.refl h d, rfl⟩
  | some attrs =>
    have hkeeps : Keeps (OnCore (AtFunction cfg d func.name w) func.core)
        (usbgSetFunctionAttrs (functionOps M.kernel) attrs) :=
      keeps_self_bind fun f hf => .deref_bind fun r hr =>
        (functionOps_stable M.kernel).setAttrs (stable_atFunction hM hp hlen w) func.core (hdir ▸ List.prefix_rfl) _
          r attrs hr
    refine ends_withNew ((hkeeps.ends (s := (w, func)) ⟨⟨.refl h d, hmade⟩, rfl⟩).mono ?_ ?_)
    · rintro _ t ⟨hat, hcore⟩
      exact ⟨hat.beside, hcore⟩
    · rintro _ t ⟨hat, -⟩
      exact ⟨hat.beside, by simp⟩

/-- The directory of a new function. -/
def functionDir (g : Gadget) (type : FunctionType) (inst : CStr) : Path :=
  g.dir ++ [functionsDir, functionName type inst]

/-- `usbg_create_function` -/
lemma usbgCreateFunction_mirror (hM : Configfs M cfg) (h : GadgetMirrored cfg N w g) :
    Ends (fun _ => MirrorStep cfg N True True w g)
      (fun _ t => MirrorStep cfg N (attrs = none ∨ t.1.tree.made (functionDir g type inst) =
        w.tree.made (functionDir g type inst)) True w g t) True
      (usbgCreateFunction M.kernel (functionOps M.kernel) type inst attrs (w, g)) := by
  have hname : (newFunction g type inst w.next).name ≠ [] := by simp [newFunction, functionName]
  have hdir : (newFunction g type inst w.next).path ++ [(newFunction g type inst w.next).name] =
      g.dir ++ [functionsDir, (newFunction g type inst w.next).name] := by simp [newFunction, Gadget.dir]
  have hclean : (g.dir ++ [functionsDir, (newFunction g type inst w.next).name]).Clean :=
    h.clean.append (by simp [hname])
  rw [usbgCreateFunction_eq, makeFunctionDir]
  simp only [Prog.bind_assoc]
  refine Ends.require_bind (fun hne => ?_) fun _ => (MirrorStep.refl h).any
  rw [self_bind_apply]
  refine Ends.require_bind (fun _ => ?_) fun _ => (MirrorStep.refl h).any
  refine Ends.require_bind (fun _ => ?_) fun _ => (MirrorStep.refl h).any
  have halloc : usbgAllocateFunction (g.path ++ [g.name, functionsDir]) type inst w =
    (.ok (newFunction g type inst w.next), { w with next := w.next + 1 }) := rfl
  refine Ends.of_eq (bind_ok (io_ok halloc)) ?_
  have hnext : MirrorStep cfg N True True w g ({ w with next := w.next + 1 }, g) := .of_eq h rfl (Nat.le_succ _)
  refine Ends.require_bind (fun _ => ?_) fun _ => hnext.any
  rw [show g.path ++ [g.name, functionsDir] ++ [(newFunction g type inst w.next).name] =
      g.dir ++ [functionsDir, (newFunction g type inst w.next).name] from hdir]
  refine Ends.bind ((mkdir_mirror hM h functionsDir_ne_nil hname).mono (fun _ _ ht => ht) fun _ _ ht => ht.any) ?_
  rintro - ⟨w₁, g₁⟩ ⟨hg, hin, hfree, hset⟩
  obtain rfl : g = g₁ := hg.symm
  rw [Prog.pure_bind]
  have hbefore : w.tree.made (g.dir ++ [functionsDir, (newFunction g type inst w.next).name]) = none := by
    simpa using hfree []
  -- from here on only the attributes can fail, and then the directory is removed
  refine (setUp_mirror (attrs = none) (fun r => r.2.core = (newFunction g type inst w.next).core) hM h
    functionsDir_ne_osDescDir hbefore (hnext.within.trans hin) hset ?_ ?_ ?_).mono (fun _ _ ht => ht)
    fun _ _ ht => ht.weaken (fun hor => hor.imp_right fun he => he.trans hbefore) fun h => h
  · exact ends_functionSetUp hM hclean h.length_dir hdir hin.shaped
      (hset.self ((place_append h.length_dir _).mpr (.inr (.inl rfl))))
  · intro t
    rw [usbgRmDir]
    -- the clean-up may not come to its `rmdir`
    by_cases hfits : ((newFunction g type inst w.next).path ++ [(newFunction g type inst w.next).name] ++ [[]]).Fits
    · rw [require_of hfits]
      refine .inr ⟨_, ?_, ?_, rfl⟩
      · rw [hdir, hclean.resolve_append]
        simp
      · rw [hdir, List.append_assoc]
        exact List.prefix_append ..
    · rw [require_of_not hfits]
      exact .inl rfl
  · rintro ⟨_, f⟩ t hin' hset' hnext' hcore
    have hfname : f.name = (newFunction g type inst w.next).name := congrArg Func.Core.name hcore
    have hfinst : f.inst = inst := congrArg Func.Core.inst hcore
    have hftype : f.type = type := congrArg Func.Core.type hcore
    have hfaddr : f.addr = w.next := congrArg Func.Core.addr hcore
    rw [← hfname] at hset' hfree
    refine MirrorStep.insertFunction h hin' hset' (by simpa using hfree []) ?_ ⟨?_, ?_⟩ ?_ ?_
    · rw [show f.path = (newFunction g type inst w.next).path from congrArg Func.Core.path hcore]
      simp [newFunction, Gadget.dir]
    · rw [hfname, hfinst, hftype]
      rfl
    · rw [hfinst]
      exact hne
    · rw [hfaddr]
    · rw [hfaddr]
      exact Nat.lt_of_succ_le (hin.next.trans hnext')

end Functions

end Libusbgx
