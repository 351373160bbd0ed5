import Libusbgx.Configfs.Shape
import Libusbgx.Creation

/-!
# Creations that fail

A constructor makes a directory and then works in it.  When that work fails the constructor calls `rmdir`
once.  This undoes everything unless something that the kernel does not remove by itself has been made in
the new directory in between: a language directory, or a unit of a mass storage function.
-/

namespace Libusbgx

open Prog Machine

variable {M : Machine} {T T' : Tree} {p q : Path} {w : World Fs} {σ α β γ δ L : Type}

/-! ## Directories -/

/-- The same directories are there. -/
def SameDirs (T T' : Tree) : Prop := ∀ q, T'.IsDir q ↔ T.IsDir q

lemma SameDirs.refl (T : Tree) : SameDirs T T := fun _ => Iff.rfl

lemma sameDirs_of_eq (h : T' = T) : SameDirs T T' := h ▸ SameDirs.refl T

/-- There is work in a new directory: it is there, and nothing has happened outside of it. -/
structure Near (T : Tree) (p : Path) (w : World Fs) : Prop where
  outside : Outside p T w.tree
  dir : w.tree.get p = some (.dir true)

/-- What a clean-up by `rmdir` makes of the tree. -/
def afterRmdir (T : Tree) (p : Path) : Tree := ((rmdir T p).toOption).getD T

/-- A directory can be made here. -/
structure NewPlace (T : Tree) (p : Path) : Prop where
  rooted : Rooted T
  links : LinksAlive T
  clean : p.Clean
  free : T.get p = none

namespace NewPlace

lemma not_isDir (h : NewPlace T p) (hq : p <+: q) : ¬ T.IsDir q := by
  have hp : ¬ T.IsDir p := by
    rw [FileTree.IsDir, h.free]
    simp
  by_cases hpq : p = q
  · rwa [← hpq]
  · rw [FileTree.IsDir, h.rooted.get_of_not_isDir hp h.clean.1 hq hpq]
    simp

/-- The clean-up works if and only if nothing has been made in the directory. -/
lemma sameDirs_afterRmdir (h : NewPlace T p) (hw : Near T p w) :
    SameDirs T (afterRmdir w.tree p) ↔ ¬ w.tree.MadeBelow p := by
  have hdir : w.tree.IsDir p := FileTree.isDir_iff.mpr ⟨true, hw.dir⟩
  constructor
  · intro hsame hmade
    have herr : rmdir w.tree p = .error .enotempty := by
      rw [rmdir, hw.dir]
      dsimp only
      rw [if_neg (by simp), if_pos hmade]
    refine h.not_isDir List.prefix_rfl ((hsame p).mp ?_)
    rw [afterRmdir, herr]
    exact hdir
  · intro hempty
    -- a link to the directory would be in it
    have hfree : ¬ w.tree.Pinned p := by
      intro hpinned
      obtain ⟨q, text, hlink⟩ := FileTree.pinned_iff.mp hpinned
      by_cases hq : p <+: q
      · refine hempty (FileTree.madeBelow_iff.mpr ⟨q, _, hlink, hq, ?_, rfl⟩)
        rintro rfl
        rw [hw.dir] at hlink
        cases hlink
      · rw [hw.outside q hq] at hlink
        exact h.not_isDir List.prefix_rfl (h.links q text p hlink)
    have hok : rmdir w.tree p = .ok (w.tree.prune p) := rmdir_eq_ok.mpr ⟨hw.dir, hempty, hfree, rfl⟩
    intro q
    rw [afterRmdir, hok]
    show (w.tree.prune p).IsDir q ↔ _
    rw [FileTree.IsDir, FileTree.get_prune]
    by_cases hq : p <+: q
    · rw [if_pos hq]
      simpa using h.not_isDir hq
    · rw [if_neg hq, hw.outside q hq]
      rfl

/-- No call near the directory, but its removal, takes it away; and the directories on the way to it are
there. -/
lemma stable_near (h : NewPlace T p) (hparent : T.IsDir p.dropLast) :
    StableUpIn M.kernel p fun w => Near T p w := by
  refine { atCall := fun c w hc hr hw => ?_, atMalloc := fun _ hw => ⟨hw.outside, hw.dir⟩, atMkdir := fun q w hq hw => ?_ }
  · have hch := kernel_change M c w
    exact ⟨hw.outside.trans (hch.outside (h.clean.prefix_resolve hc)),
      hch.get_dir hw.dir fun hremoves => Under.resolve_not_below (hr hremoves) h.clean⟩
  · -- the directories on the way are there already
    have hsame : (M.kernel.call (.mkdir q) w.sys).2.tree = w.tree := by
      refine (kernel_change M (.mkdir q) w).mkdir_of_isDir ?_
      by_cases hq0 : q = []
      · exact .inl hq0
      refine .inr ?_
      rw [(h.clean.of_prefix hq hq0).2]
      by_cases hqp : q = p
      · rw [hqp]
        exact FileTree.isDir_iff.mpr ⟨true, hw.dir⟩
      · have hnot : ¬ p <+: q := fun hpq => hqp (hq.eq_of_length_le hpq.length_le)
        rw [FileTree.IsDir, hw.outside q hnot]
        exact h.rooted.isDir_of_parent hparent hq hqp hq0
    exact ⟨fun r hr => (congrArg (fun T' : Tree => T'.get r) hsame).trans (hw.outside r hr),
      (congrArg (fun T' : Tree => T'.get p) hsame).trans hw.dir⟩

/-- The directory has just been made. -/
lemma near_newDir (h : NewPlace T p) (hw : w.tree = T.addAll (M.newDir p)) : Near T p w where
  outside q hq := by rw [hw, get_newDir_outside hq]
  dir := by rw [hw, get_newDir_self h.free]

/-- The kernel puts nothing into a new directory that the user would have to remove. -/
lemma not_madeBelow (h : NewPlace T p) (hw : w.tree = T.addAll (M.newDir p)) : ¬ w.tree.MadeBelow p := by
  intro hmade
  obtain ⟨q, n, hn, hq, hne, hmade⟩ := FileTree.madeBelow_iff.mp hmade
  rw [hw] at hn
  have hold := made_newDir hn hmade hne
  have hp : ¬ T.IsDir p := h.not_isDir List.prefix_rfl
  rw [h.rooted.get_of_not_isDir hp h.clean.1 hq hne.symm] at hold
  cases hold

end NewPlace

/-! ## Constructors -/

/-- A call that fails leaves the directories and the lists as they were. -/
def CreatesCleanly (lists : σ → L) (m : On Fs σ α) (t : World Fs × σ) : Prop :=
  Ends (fun _ _ => True) (fun _ t' => SameDirs t.1.tree t'.1.tree ∧ lists t'.2 = lists t.2) True (m t)

/-- What a constructor does in the directory it has made does not fail; or it has not made anything there
that the kernel would not remove, and the path for `rmdir` fits. -/
def SetUpClean (make : On Fs σ β) (setUp : β → Io Fs γ) (rmPath : β → Path) (t : World Fs × σ) : Prop :=
  ∀ b t₁, make t = (.ok b, t₁) →
    Ends (fun _ _ => True) (fun _ w => ¬ w.tree.MadeBelow (rmPath b).resolve ∧ (rmPath b).Fits) True (setUp b t₁.1)

/-- The clean-up calls `rmdir` if the path fits. -/
def CleansUp (cleanUp : Io Fs Unit) (path : Path) : Prop :=
  ∀ w, (cleanUp w).1 ≠ .undef ∧ (cleanUp w).2.tree = if path.Fits then afterRmdir w.tree path.resolve else w.tree

/-- A directory has been made, and what is done in it stays near it. -/
structure HasMade (lists : σ → L) (setUp : β → Io Fs γ) (rmPath : β → Path) (t : World Fs × σ) (b : β)
    (t₁ : World Fs × σ) : Prop where
  place : NewPlace t.1.tree (rmPath b).resolve
  near : Near t.1.tree (rmPath b).resolve t₁.1
  empty : ¬ t₁.1.tree.MadeBelow (rmPath b).resolve
  lists : lists t₁.2 = lists t.2
  keeps : Keeps (Near t.1.tree (rmPath b).resolve) (setUp b)

/-- A constructor fails cleanly if and only if its set-up does. -/
lemma createsCleanly_iff {lists : σ → L} {make : On Fs σ β} {setUp : β → Io Fs γ} {rmPath : β → Path}
    {cleanUp : β → Io Fs Unit} {finish : β → γ → On Fs σ α} {t : World Fs × σ}
    (hmake : Ends (fun b t' => HasMade lists setUp rmPath t b t' ∧ CleansUp (cleanUp b) (rmPath b))
      (fun _ t' => SameDirs t.1.tree t'.1.tree ∧ lists t'.2 = lists t.2) True (make t))
    (hfinish : ∀ b c t, Ends (fun _ _ => True) (fun _ _ => False) True (finish b c t)) :
    CreatesCleanly lists (make >>= fun b => io (onFail (setUp b) (cleanUp b)) >>= finish b) t ↔
      SetUpClean make setUp rmPath t := by
  rw [CreatesCleanly, SetUpClean]
  rcases hm : make t with ⟨b | e | _, t₁⟩
  · rw [hm] at hmake
    obtain ⟨hmade, hclean⟩ : HasMade lists setUp rmPath t b t₁ ∧ CleansUp (cleanUp b) (rmPath b) := hmake
    rw [bind_ok hm]
    have honly : (∀ b' t', ((.ok b, t₁) : Outcome UsbgError β × _) = (.ok b', t') →
        Ends (fun _ _ => True) (fun _ w => ¬ w.tree.MadeBelow (rmPath b').resolve ∧ (rmPath b').Fits) True
          (setUp b' t'.1)) ↔ Ends (fun _ _ => True)
            (fun _ w => ¬ w.tree.MadeBelow (rmPath b).resolve ∧ (rmPath b).Fits) True (setUp b t₁.1) := by
      refine ⟨fun h => h b t₁ rfl, fun h b' t' heq => ?_⟩
      obtain ⟨hb, rfl⟩ := Prod.mk.inj heq
      rw [← Outcome.ok.inj hb]
      exact h
    rw [honly]
    have hkeeps := hmade.keeps t₁.1 hmade.near
    -- the clean-up runs only if the attributes or strings have failed
    rcases hs : setUp b t₁.1 with ⟨c | e | _, w₂⟩
    · rw [bind_ok (io_ok (onFail_ok hs))]
      exact iff_of_true ((hfinish b c _).mono (fun _ _ h => h) fun _ _ h => h.elim) trivial
    · rw [hs] at hkeeps
      obtain ⟨hundef, htree⟩ := hclean w₂
      rw [bind_fail (io_fail (onFail_fail hs hundef))]
      show SameDirs t.1.tree _ ∧ lists t₁.2 = lists t.2 ↔ _
      rw [and_iff_left hmade.lists, htree]
      -- the library removes the directory with one `rmdir`, if the path fits
      split
      · next hfits => exact (hmade.place.sameDirs_afterRmdir hkeeps).trans (and_iff_left hfits).symm
      · next hfits =>
        refine iff_of_false (fun hsame => ?_) fun h => hfits h.2
        exact hmade.place.not_isDir List.prefix_rfl ((hsame _).mp (FileTree.isDir_iff.mpr ⟨true, hkeeps.dir⟩))
    · rw [bind_undef (io_undef (show onFail (setUp b) (cleanUp b) t₁.1 = (.undef, w₂) by rw [onFail_apply, hs]))]
      exact iff_of_true trivial trivial
  · rw [hm] at hmake
    rw [bind_fail hm]
    exact iff_of_true hmake fun _ _ h => by cases h
  · rw [bind_undef hm]
    exact iff_of_true trivial fun _ _ h => by cases h

section CleanUps

variable {path : Path} {name : CStr}

lemma call_rmdir_after (hg : M.Grants (.rmdir path)) (w : World Fs) :
    (M.kernel.call (.rmdir path) w.sys).2.tree = afterRmdir w.tree path.resolve := by
  have hexec : M.exec (.rmdir path) w.tree = (rmdir w.tree path.resolve).map ((), ·) := rfl
  rw [kernel, afterRmdir]
  dsimp only
  rw [hg, show w.sys.tree = w.tree from rfl, hexec]
  rcases rmdir w.tree path.resolve with e | T' <;> rfl

lemma cleansUp_tryCall (hg : M.Grants (.rmdir path)) (hfits : path.Fits) :
    CleansUp (tryCall M.kernel (.rmdir path)) path := fun w =>
  ⟨by simp [tryCall], by rw [if_pos hfits]; exact call_rmdir_after hg w⟩

lemma cleansUp_usbgRmDir (hg : M.Grants (.rmdir (path ++ [name]))) :
    CleansUp (usbgRmDir M.kernel path name) (path ++ [name]) := by
  intro w
  refine ⟨defined_usbgRmDir w, ?_⟩
  rw [usbgRmDir]
  by_cases hfits : (path ++ [name]).Fits
  · rw [require_of hfits, pure_bind, if_pos hfits]
    exact call_rmdir_after hg w
  · rw [require_of_not hfits, if_neg hfits]
    rfl

end CleanUps

/-! ### The constructors in three parts -/

section Parts

variable {κ : Type} (K : Kernel κ) (ops : FunctionType → FunctionOps κ)

/-- A gadget constructor up to the directory. -/
def makeGadgetDir (name : CStr) : On κ State Gadget := do
  let s ← self
  require (usbgGetGadget s name = none) .exist
  usbgCreateEmptyGadget K name

/-- `usbg_create_config` up to the directory -/
def makeConfigDir (id : ℤ) (label : Option CStr) : On κ Gadget Config := do
  require (0 < id ∧ id ≤ 255) .invalidParam
  let g ← self
  require (usbgGetConfig g id none = none) .exist
  require (g.path ++ [g.name, configsDir]).Fits .pathTooLong
  let conf ← io (usbgAllocateConfig (g.path ++ [g.name, configsDir]) (label.getD defaultConfigLabel) id)
  require (g.path ++ [g.name, configsDir] ++ [conf.name]).Fits .pathTooLong
  io (call K (.mkdir (g.path ++ [g.name, configsDir] ++ [conf.name])))
  pure conf

/-- What `usbg_create_config` does in the directory. -/
def configSetUp (attrs : Option ConfigAttrs) (strs : Option ConfigStrs) (conf : Config) : Io κ Unit := do
  whenSome (usbgSetConfigAttrs K conf) attrs
  whenSome (fun strs => usbgSetConfigString K conf langUsEng strs.configuration) strs

/-- `usbg_create_function` up to the directory -/
def makeFunctionDir (type : FunctionType) (inst : CStr) : On κ Gadget Func := do
  require (inst ≠ []) .invalidParam
  let g ← self
  require (usbgGetFunction g type inst = none) .exist
  require (g.path ++ [g.name, functionsDir]).Fits .pathTooLong
  let func ← io (usbgAllocateFunction (g.path ++ [g.name, functionsDir]) type inst)
  require (g.path ++ [g.name, functionsDir] ++ [func.name]).Fits .pathTooLong
  io (call K (.mkdir (g.path ++ [g.name, functionsDir] ++ [func.name])))
  pure func

/-- What `usbg_create_function` does in the directory. -/
def functionSetUp (attrs : Option FunctionAttrs) (func : Func) : Io κ (Unit × Func) :=
  match attrs with
  | some attrs => withNew func (usbgSetFunctionAttrs ops attrs)
  | none => pure ((), func)

lemma createGadgetWith_eq (name : CStr) (setUp : Gadget → Io κ Unit) :
    createGadgetWith K name setUp = makeGadgetDir K name >>= fun gad =>
      io (onFail (setUp gad) (usbgRmDir K gad.path gad.name)) >>= fun _ =>
      (do
        update fun s => { s with gadgets := insertSorted Gadget.name gad s.gadgets }
        pure gad.addr : On κ State Addr) := by
  rw [createGadgetWith, makeGadgetDir]
  simp only [Prog.bind_assoc]

lemma usbgCreateConfig_eq (id : ℤ) (label : Option CStr) (attrs : Option ConfigAttrs)
    (strs : Option ConfigStrs) :
    usbgCreateConfig K id label attrs strs = makeConfigDir K id label >>= fun conf =>
      io (onFail (configSetUp K attrs strs conf) (tryCall K (.rmdir (conf.path ++ [conf.name])))) >>= fun _ =>
      (do
        update fun g => { g with configs := insertSorted Config.name conf g.configs }
        pure conf.addr : On κ Gadget Addr) := by
  rw [usbgCreateConfig, makeConfigDir]
  simp only [Prog.bind_assoc, pure_bind]
  rfl

lemma usbgCreateFunction_eq (type : FunctionType) (inst : CStr) (attrs : Option FunctionAttrs) :
    usbgCreateFunction K ops type inst attrs = makeFunctionDir K type inst >>= fun func =>
      io (onFail (functionSetUp ops attrs func) (usbgRmDir K (func.path ++ [func.name]) [])) >>= fun r =>
      (do
        update fun g => { g with functions := insertSorted Func.name r.2 g.functions }
        pure r.2.addr : On κ Gadget Addr) := by
  rw [usbgCreateFunction, makeFunctionDir]
  cases attrs <;> simp only [Prog.bind_assoc, pure_bind] <;> rfl

end Parts

/-! ### What is there when the set-up begins -/

section Made

variable {g : Gadget} {s : State}

/-- `mkdir` has made the directory. -/
lemma newPlace_of_mkdir (hrooted : Rooted T) (hlinks : LinksAlive T) (hclean : p.resolve.Clean)
    (h : M.mkdir T p.resolve = .ok T') :
    NewPlace T p.resolve ∧ T.IsDir p.resolve.dropLast ∧ T' = T.addAll (M.newDir p.resolve) := by
  obtain ⟨hfree, hparent, -, rfl⟩ := mkdir_eq_ok.mp h
  exact ⟨⟨hrooted, hlinks, hclean, hfree⟩, hparent, rfl⟩

lemma makeConfigDir_ends (M : Machine) (n : ℤ) (label : Option CStr) (attrs : Option ConfigAttrs)
    (strs : Option ConfigStrs) (hclean : g.dir.Clean) (hrooted : Rooted w.tree) (hlinks : LinksAlive w.tree) :
    Ends (fun conf t => HasMade (fun g => g) (configSetUp M.kernel attrs strs) (fun conf => conf.path ++ [conf.name])
        (w, g) conf t ∧ (conf.path ++ [conf.name]).Fits)
      (fun _ t => SameDirs w.tree t.1.tree ∧ t.2 = g) True (makeConfigDir M.kernel n label (w, g)) := by
  have hsame : SameDirs w.tree w.tree := .refl _
  rw [makeConfigDir]
  refine Ends.require_bind (fun _ => ?_) fun _ => ⟨hsame, rfl⟩
  rw [self_bind_apply]
  refine Ends.require_bind (fun _ => ?_) fun _ => ⟨hsame, rfl⟩
  refine Ends.require_bind (fun _ => ?_) fun _ => ⟨hsame, rfl⟩
  have halloc : usbgAllocateConfig (g.path ++ [g.name, configsDir]) (label.getD defaultConfigLabel) n w =
    (.ok (newConfig g n label w.next), { w with next := w.next + 1 }) := rfl
  refine Ends.of_eq (bind_ok (io_ok halloc)) ?_
  refine Ends.require_bind (fun hfits => ?_) fun _ => ⟨hsame, rfl⟩
  have hpath : (newConfig g n label w.next).path ++ [(newConfig g n label w.next).name] =
    g.dir ++ [configsDir, configName (label.getD defaultConfigLabel) n] := by simp [newConfig, Gadget.dir]
  have hcclean : ((newConfig g n label w.next).path ++ [(newConfig g n label w.next).name]).Clean := by
    rw [hpath]
    exact hclean.append (by simp [configName])
  refine Ends.bind (R := fun _ t => HasMade (fun g => g) (configSetUp M.kernel attrs strs)
    (fun conf => conf.path ++ [conf.name]) (w, g) (newConfig g n label w.next) t) (ends_io ?_) fun _ _ h => ⟨h, hfits⟩
  refine ends_mkdir (fun w' hok _ => ?_) fun e w' ht _ => ⟨sameDirs_of_eq ht, rfl⟩
  have hresolve := hcclean.2
  obtain ⟨hplace, hparent, ht⟩ := newPlace_of_mkdir
    (p := (newConfig g n label w.next).path ++ [(newConfig g n label w.next).name]) hrooted hlinks
    (by rwa [hresolve]) hok
  have hst := (hplace.stable_near (M := M) hparent).toStableIn
  have hp : ((newConfig g n label w.next).path ++ [(newConfig g n label w.next).name]).resolve <+:
      (newConfig g n label w.next).path ++ [(newConfig g n label w.next).name] := by rw [hresolve]
  exact ⟨hplace, hplace.near_newDir ht, hplace.not_madeBelow ht, rfl, .bind (.whenSome fun _ _ => hst.keeps_usbgSetConfigAttrs hp) fun _ =>
    .whenSome fun _ _ => hst.keeps_usbgSetConfigString (below_cons hp _)⟩

lemma keeps_withNew {τ : Type} {κ : Type} {I : World κ → Prop} {P : τ → Prop} {t : τ} {m : On κ τ α}
    (hm : Keeps (With I P) m) (ht : P t) : Keeps I (withNew t m) := by
  intro w hw
  have h := hm (w, t) ⟨hw, ht⟩
  rw [withNew]
  rcases hr : m (w, t) with ⟨_ | _ | _, u⟩ <;> rw [hr] at h <;> exact h.1

/-- What is done in the directory of a function stays near it. -/
lemma StableUpIn.keeps_functionSetUp {κ : Type} {K : Kernel κ} {I : World κ → Prop} (h : StableUpIn K p I)
    {ops : FunctionType → FunctionOps κ} (hops : OpsStable K ops) {attrs : Option FunctionAttrs} {func : Func}
    (hp : p <+: func.core.dir) : Keeps I (functionSetUp ops attrs func) := by
  cases attrs with
  | none => exact .pure _
  | some attrs =>
    exact keeps_withNew (P := fun f => f.core = func.core) (keeps_self_bind fun f hf => .deref_bind fun r hr =>
      hops.setAttrs h func.core hp _ r attrs hr) rfl

/-- The function that `usbg_create_function` allocates. -/
def newFunction (g : Gadget) (type : FunctionType) (inst : CStr) (a : Addr) : Func :=
  .allocated a (g.path ++ [g.name, functionsDir]) type inst

lemma makeFunctionDir_ends (hclean : g.dir.Clean) (hrooted : Rooted w.tree) (hlinks : LinksAlive w.tree)
    {type : FunctionType} {inst : CStr} {attrs : Option FunctionAttrs} :
    Ends (HasMade (fun g => g) (functionSetUp (functionOps M.kernel) attrs)
        (fun func => func.path ++ [func.name] ++ [[]]) (w, g))
      (fun _ t => SameDirs w.tree t.1.tree ∧ t.2 = g) True (makeFunctionDir M.kernel type inst (w, g)) := by
  have hsame : SameDirs w.tree w.tree := .refl _
  rw [makeFunctionDir]
  refine Ends.require_bind (fun _ => ?_) fun _ => ⟨hsame, rfl⟩
  rw [self_bind_apply]
  refine Ends.require_bind (fun _ => ?_) fun _ => ⟨hsame, rfl⟩
  refine Ends.require_bind (fun _ => ?_) fun _ => ⟨hsame, rfl⟩
  have halloc : usbgAllocateFunction (g.path ++ [g.name, functionsDir]) type inst w =
    (.ok (newFunction g type inst w.next), { w with next := w.next + 1 }) := rfl
  refine Ends.of_eq (bind_ok (io_ok halloc)) ?_
  refine Ends.require_bind (fun hfits => ?_) fun _ => ⟨hsame, rfl⟩
  have hpath : (newFunction g type inst w.next).dir = g.dir ++ [functionsDir, functionName type inst] := by
    simp [newFunction, Gadget.dir, Func.dir]
  have hcclean : (newFunction g type inst w.next).dir.Clean := by
    rw [hpath]
    exact hclean.append (by simp [functionName])
  have hresolve : ((newFunction g type inst w.next).dir ++ [[]]).resolve = (newFunction g type inst w.next).dir := by
    rw [hcclean.resolve_append]
    simp
  refine Ends.bind (R := fun _ t => HasMade (fun g => g) (functionSetUp (functionOps M.kernel) attrs)
    (fun func => func.path ++ [func.name] ++ [[]]) (w, g) (newFunction g type inst w.next) t) (ends_io ?_)
    fun _ _ h => h
  refine ends_mkdir (fun w' hok _ => ?_) fun e w' ht _ => ⟨sameDirs_of_eq ht, rfl⟩
  have hok' : M.mkdir w.tree (newFunction g type inst w.next).dir.resolve = .ok w'.tree := hok
  obtain ⟨hplace, hparent, ht⟩ := newPlace_of_mkdir hrooted hlinks (by rwa [hcclean.2]) hok'
  rw [hcclean.2, ← hresolve] at hplace hparent ht
  refine ⟨hplace, hplace.near_newDir ht, hplace.not_madeBelow ht, rfl, ?_⟩
  refine (hplace.stable_near (M := M) hparent).keeps_functionSetUp (functionOps_stable M.kernel) ?_
  show ((newFunction g type inst w.next).dir ++ [[]]).resolve <+: (newFunction g type inst w.next).dir
  rw [hresolve]

/-- The step that sets up a gadget works in its directory. -/
def SetsUpBelow (M : Machine) (path : Path) (name : CStr) (setUp : Gadget → Io Fs Unit) : Prop :=
  ∀ (gad : Gadget) (I : World Fs → Prop), gad.path = path → gad.name = name →
    StableIn M.kernel (path ++ [name]) I → Keeps I (setUp gad)

/-- Reading leaves the tree as it is. -/
lemma usbgReadString_tree {path : Path} {name file : CStr} :
    Ends (fun _ w' => w'.tree = w.tree) (fun _ w' => w'.tree = w.tree) True
      (usbgReadString M.kernel path name file w) := by
  refine Ends.bind (R := fun _ w' => w'.tree = w.tree) ?_ ?_
  · exact usbgReadBufLimited_ends.mono_undef (fun _ _ h => h.2.1) (fun _ _ h => h) False.elim
  · intro buf w' ht
    exact ht

lemma makeGadgetDir_ends (hclean : s.path.Clean) (hdir : w.tree.IsDir s.path) (hrooted : Rooted w.tree)
    (hlinks : LinksAlive w.tree) {name : CStr} (hgrants : M.Grants (.rmdir (s.path ++ [name])))
    {setUp : Gadget → Io Fs Unit} (hset : SetsUpBelow M s.path name setUp) :
    Ends (fun gad t => HasMade State.gadgets setUp (fun gad => gad.path ++ [gad.name]) (w, s) gad t ∧
        (gad.path ++ [gad.name]).Fits)
      (fun _ t => SameDirs w.tree t.1.tree ∧ t.2.gadgets = s.gadgets) True (makeGadgetDir M.kernel name (w, s)) := by
  have hsame : SameDirs w.tree w.tree := .refl _
  rw [makeGadgetDir, self_bind_apply]
  refine Ends.require_bind (fun _ => ?_) fun _ => ⟨hsame, rfl⟩
  rw [usbgCreateEmptyGadget, self_bind_apply]
  refine Ends.require_bind (fun hfits => ?_) fun _ => ⟨hsame, rfl⟩
  refine Ends.bind (R := fun gad t => gad.path = s.path ∧ gad.name = name ∧ t.1.tree = w.tree ∧ t.2 = s)
    (ends_io ⟨rfl, rfl, rfl, rfl⟩) ?_
  rintro gad ⟨w₁, s₁⟩ ⟨hpath, hname, ht₁, hs₁⟩
  dsimp only at ht₁ hs₁
  subst hs₁
  refine Ends.bind (R := fun _ t => t.2 = s₁ ∧ NewPlace w.tree (s₁.path ++ [name]) ∧ w.tree.IsDir s₁.path ∧
      t.1.tree = w.tree.addAll (M.newDir (s₁.path ++ [name])))
    (ends_io (ends_mkdir (fun w' hok _ => ?_) fun e w' ht _ => ⟨sameDirs_of_eq (ht.trans ht₁), rfl⟩)) ?_
  · rw [ht₁] at hok
    -- without a name the path is that of a directory, which is there
    have hne : name ≠ [] := by
      rintro rfl
      obtain ⟨hfree, -⟩ := mkdir_eq_ok.mp hok
      rw [hclean.resolve_append, List.filter_eq_nil_iff.mpr (by simp), List.append_nil] at hfree
      rw [FileTree.IsDir, hfree] at hdir
      cases hdir
    have hnew : (s₁.path ++ [name]).Clean := hclean.append (by simpa using hne)
    obtain ⟨hplace, hparent, ht⟩ := newPlace_of_mkdir hrooted hlinks (by rwa [hnew.2]) hok
    rw [hnew.2] at hplace ht
    exact ⟨rfl, hplace, hdir, ht⟩
  rintro - ⟨w₂, s₂⟩ ⟨hs₂, hplace, hparent, ht₂⟩
  dsimp only at hs₂ ht₂
  subst hs₂
  have hres : (s₂.path ++ [name]).resolve = s₂.path ++ [name] := hplace.clean.2
  have hst := (hplace.stable_near (M := M) (by rwa [List.dropLast_concat])).toStableIn
  have hread : Ends (fun _ t => t.1.tree = w₂.tree ∧ t.2 = s₂)
      (fun _ t => SameDirs w.tree t.1.tree ∧ t.2.gadgets = s₂.gadgets) True
      (io (onFail (usbgReadString M.kernel gad.path gad.name udcFile)
        (tryCall M.kernel (.rmdir (s₂.path ++ [name])))) (w₂, s₂)) := by
    refine ends_io (Ends.onFail (F := fun _ w' => w'.tree = w₂.tree)
      (usbgReadString_tree.mono (fun _ _ h => ⟨h, rfl⟩) fun _ _ h => h) fun e w₃ ht₃ => ?_)
    have hnear : Near w.tree (s₂.path ++ [name]) w₃ := hplace.near_newDir (ht₃.trans ht₂)
    have hempty := hplace.not_madeBelow (ht₃.trans ht₂)
    refine ⟨?_, rfl⟩
    show SameDirs w.tree (M.kernel.call (.rmdir (s₂.path ++ [name])) w₃.sys).2.tree
    rw [call_rmdir_after hgrants, hres]
    exact (hplace.sameDirs_afterRmdir hnear).mpr hempty
  refine Ends.bind hread ?_
  rintro buf ⟨w₃, s₃⟩ ⟨ht₃, hs₃⟩
  dsimp only at ht₃ hs₃
  subst hs₃
  have hmade : ∀ (gad' : Gadget) (s' : State), gad'.path = s₃.path → gad'.name = name →
      s'.gadgets = s₃.gadgets →
      HasMade State.gadgets setUp (fun gad => gad.path ++ [gad.name]) (w, s₃) gad' (w₃, s') ∧
        (gad'.path ++ [gad'.name]).Fits := by
    intro gad' s' hpath hname hlists
    have hp : (gad'.path ++ [gad'.name]).resolve = s₃.path ++ [name] := by rw [hpath, hname, hres]
    have ht := ht₃.trans ht₂
    refine ⟨⟨hp ▸ hplace, hp ▸ hplace.near_newDir ht, hp ▸ hplace.not_madeBelow ht, hlists, ?_⟩,
      by rwa [hpath, hname]⟩
    rw [hp]
    exact hset gad' _ hpath hname hst
  cases (usbgGetUdc s₃ buf).map Udc.addr with
  | none => exact hmade gad s₃ hpath hname rfl
  | some u => exact hmade _ _ hpath hname rfl

end Made

end Libusbgx
