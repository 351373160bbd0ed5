import Libusbgx.Removal.Unbind

/-!
# Removing a function without its parts

Without the recursive flag `usbg_rm_function` should remove all of a function or nothing.  The callback of
its type runs before the directory is removed, and does not look at the flag: what it takes away is gone
even when the directory stays.
-/

namespace Libusbgx

open Prog Machine

variable {M : Machine} {w : World Fs} {g : Gadget} {f : Addr} {func : Func} {T : Tree}

/-- A non-recursive `usbg_rm_function` that fails has changed nothing; and one that succeeds had nothing
to remove that the user had made in the function. -/
def AllOrNothing (M : Machine) (w : World Fs) (g : Gadget) (f : Addr) (func : Func) : Prop :=
  Ends (fun _ _ => ¬ w.tree.MadeBelow func.dir) (fun _ s => s.1.tree = w.tree ∧ s.2 = g) False
    (usbgRmFunction M.kernel (functionOps M.kernel) f false (w, g))

/-- The kernel would remove the directory of the function. -/
def DirGoes (M : Machine) (T : Tree) (func : Func) : Prop :=
  func.dir.Fits ∧ M.Grants (.rmdir func.dir) ∧ ∃ T', rmdir T func.dir = .ok T'

/-- The callback finds nothing to remove. -/
def CallbackPlain (T : Tree) (func : Func) : Prop :=
  match func.type with
  | .massStorage => MsPlain func.dir T func
  | .uvc => UvcPlain func.dir T
  | _ => True

/-- The mask of a mass storage function is still to be read, and can be. -/
def ReadsMask (T : Tree) (func : Func) : Prop := func.type = .massStorage ∧ MaskFresh func.dir T func

/-- The callback finds nothing to remove; and when it reads the mask, the function goes. -/
def CallbackIdle (M : Machine) (T : Tree) (func : Func) : Prop :=
  CallbackPlain T func ∧ (ReadsMask T func → DirGoes M T func)

/-- What the kernel promises about the directory of a function: no name is empty, and in a mass storage
function nothing but the units looks like a unit. -/
structure FuncDirOk (T : Tree) (func : Func) : Prop where
  clean : func.dir.Clean
  named : Named T
  units : func.type = .massStorage → LunsOk func.dir T func

/-! ## The callback -/

/-- What the callback has done: nothing, besides reading the mask, or something is gone. -/
structure CallbackDone (M : Machine) (T : Tree) (g : Gadget) (func : Func) (s : World Fs × Gadget) : Prop where
  result : ∃ func', func'.core = func.core ∧ s.2 = g.setFunction func' ∧
    ((s.1.tree = T ∧ (func' = func ∨ ReadsMask T func) ∧ ((∀ c, M.Grants c) →
        (func.type = .massStorage → UnitsCanGo func.dir T func) → CallbackPlain T func)) ∨
      Lost func.dir T s.1.tree ∧ ¬ CallbackPlain T func) ∧
    ((∀ c, M.Grants c) → ReadsMask T func → func' ≠ func)

/-- The callback of a type.  When it fails and has done nothing, it has not read the mask. -/
lemma removeCallback_done (hfunc : g.function? f = some func) (hnodup : KeysNodup Func.addr g.functions)
    (hdir : FuncDirOk w.tree func) :
    Ends (fun _ s => CallbackDone M w.tree g func s)
      (fun _ s => CallbackDone M w.tree g func s ∧ (CallbackPlain w.tree func → ¬ ReadsMask w.tree func)) False
      (whenSome (fun remove => onFunction f (remove false)) (functionOps M.kernel func.type).remove (w, g)) := by
  cases hremove : (functionOps M.kernel func.type).remove with
  | none =>
    have hplain : CallbackPlain w.tree func := by
      rw [CallbackPlain]
      cases htype : func.type <;> rw [htype] at hremove <;> trivial
    have hms : ¬ ReadsMask w.tree func := by
      rintro ⟨htype, -⟩
      rw [htype] at hremove
      cases hremove
    exact ⟨func, rfl, (setFunction_self (find?_key_mem hfunc) hnodup).symm,
      .inl ⟨rfl, .inl rfl, fun _ _ => hplain⟩, fun _ hreads => absurd hreads hms⟩
  | some remove =>
    rw [whenSome_some]
    have hkeeps := (functionOps_stable M.kernel).remove (stable_next M.kernel 0).toStableUpIn func.core List.nil_prefix
      func.type remove false hremove (w, func) ⟨Nat.zero_le _, rfl⟩
    -- only two types have a callback
    cases htype : func.type <;> rw [htype] at hremove <;> cases hremove
    · have hplain : CallbackPlain w.tree func = MsPlain func.dir w.tree func := by rw [CallbackPlain, htype]
      have hreads : ReadsMask w.tree func ↔ MaskFresh func.dir w.tree func := and_iff_right htype
      have hends := msRemove_ends (M := M) (hdir.units htype) false
      have hdone : ∀ t : World Fs × Func, t.2.core = func.core →
          MsSwept M func.dir w.tree func t.1.tree t.2 →
            CallbackDone M w.tree g func (t.1, g.setFunction t.2) := by
        rintro t hcore ⟨hresult, hread⟩
        refine ⟨t.2, hcore, rfl, ?_, fun hg hfresh heq => ?_⟩
        · rw [hplain, hreads]
          exact hresult.imp_left fun h => ⟨h.1, h.2.1, fun hg hunits => h.2.2 hg (hunits htype)⟩
        · have hinit := hread hg (hreads.mp hfresh)
          rw [heq, (hreads.mp hfresh).1] at hinit
          cases hinit
      refine ends_onFunction hfunc (Ends.intro ?_ ?_ ?_)
      · intro _ t ht
        rw [ht] at hkeeps hends
        exact hdone t hkeeps.2 hends
      · intro _ t ht
        rw [ht] at hkeeps hends
        exact ⟨hdone t hkeeps.2 hends.1, fun h => absurd (hplain ▸ h) hends.2⟩
      · intro t ht
        rw [ht] at hends
        exact hends
    · have hplain : CallbackPlain w.tree func = UvcPlain func.dir w.tree := by rw [CallbackPlain, htype]
      have hreads : ¬ ReadsMask w.tree func := by
        rintro ⟨hms, -⟩
        rw [htype] at hms
        cases hms
      have hends := uvcRemove_ends (M := M) rfl hdir.clean hdir.named false
      have hdone : ∀ t : World Fs × Func, t.2 = func → SweepEnd M func.dir w.tree (UvcPlain func.dir w.tree) t.1.tree →
          CallbackDone M w.tree g func (t.1, g.setFunction t.2) := by
        rintro t hsame hresult
        refine ⟨t.2, by rw [hsame], rfl, ?_, fun _ h => absurd h hreads⟩
        rw [hplain]
        exact hresult.imp_left fun h => ⟨h.1, .inl hsame, fun hg _ => h.2 hg⟩
      refine ends_onFunction hfunc (hends.mono ?_ ?_)
      · rintro - t ⟨hsame, hresult⟩
        exact hdone t hsame hresult
      · rintro - t ⟨hsame, hresult⟩
        exact ⟨hdone t hsame hresult, fun _ => hreads⟩

/-! ## The whole function -/

/-- `usbg_rm_function` without the flag: the callback, the directory, the list. -/
lemma usbgRmFunction_plain (K : Kernel Fs) (hfunc : g.function? f = some func) :
    usbgRmFunction K (functionOps K) f false (w, g) =
      (whenSome (fun remove => onFunction f (remove false)) (functionOps K func.type).remove >>= fun _ =>
        io (usbgRmDir K func.path func.name) >>= fun _ =>
          update fun g => { g with functions := g.functions.filter (·.addr ≠ f) }) (w, g) := by
  rw [usbgRmFunction, self_bind_apply]
  dsimp only
  rw [hfunc, deref_some, pure_bind, when_of_not (by simp), pure_bind]

lemma function?_setFunction {func' : Func} (hfunc : g.function? f = some func) (hcore : func'.core = func.core) :
    (g.setFunction func').function? f = some func' := by
  have haddr : func'.addr = func.addr := congrArg Func.Core.addr hcore
  have hkey : ∀ x : Func, Func.addr (if x.addr = func'.addr then func' else x) = x.addr := by
    intro x
    by_cases hx : x.addr = func'.addr
    · rw [if_pos hx, hx]
    · rw [if_neg hx]
  have hfind := find?_key_map hkey g.functions f
  rw [Gadget.function?] at hfunc
  rw [Gadget.function?, Gadget.setFunction]
  dsimp only
  rw [hfind, hfunc, Option.map_some, if_pos haddr.symm]

lemma allOrNothing_of_idle (hfunc : g.function? f = some func) (hnodup : KeysNodup Func.addr g.functions)
    (hdir : FuncDirOk w.tree func) (hidle : CallbackIdle M w.tree func) : AllOrNothing M w g f func := by
  obtain ⟨hplain, hgoes⟩ := hidle
  -- the callback leaves the tree as it is
  have hsame : ∀ s : World Fs × Gadget, CallbackDone M w.tree g func s →
      s.1.tree = w.tree ∧ (s.2 = g ∨ ReadsMask w.tree func) := by
    rintro s ⟨func', -, hs, hresult, -⟩
    rcases hresult with ⟨ht, hfunc', -⟩ | ⟨-, hnot⟩
    · refine ⟨ht, hfunc'.imp_left fun heq => ?_⟩
      rw [hs, heq, setFunction_self (find?_key_mem hfunc) hnodup]
    · exact absurd hplain hnot
  rw [AllOrNothing, usbgRmFunction_plain M.kernel hfunc]
  refine Ends.bind ((removeCallback_done hfunc hnodup hdir).mono (fun _ _ h => hsame _ h) ?_) ?_
  · rintro - s ⟨hdone, hreads⟩
    obtain ⟨ht, hs⟩ := hsame s hdone
    exact ⟨ht, hs.resolve_right (hreads hplain)⟩
  · rintro - ⟨w₁, g₁⟩ ⟨ht, hg⟩
    dsimp only at ht hg
    refine Ends.bind (R := fun _ _ => ¬ w.tree.MadeBelow func.dir) (ends_io (ends_usbgRmDir ?_ ?_)) fun _ _ h => h
    · intro w' hrmdir _
      obtain ⟨-, hbelow, -⟩ := rmdir_eq_ok.mp hrmdir
      rw [ht] at hbelow
      rwa [show func.path ++ [func.name] = func.dir from rfl, hdir.clean.2] at hbelow
    · intro e w' hwhy ht' _
      refine ⟨ht'.trans ht, hg.resolve_right fun hreads => ?_⟩
      -- the function would have gone
      obtain ⟨hfits, hgrants, T', hok⟩ := hgoes hreads
      obtain ⟨errno, herr⟩ := hwhy hfits hgrants
      rw [exec, show func.path ++ [func.name] = func.dir from rfl, hdir.clean.2, ht, hok] at herr
      cases herr

/-- What `usbg_rm_dir` removes has a path that fits. -/
lemma usbgRmDir_goes (hclean : func.dir.Clean) :
    Ends (fun _ w' => func.dir.Fits ∧ rmdir w.tree func.dir = .ok w'.tree) (fun _ w' => w'.tree = w.tree) False
      (usbgRmDir M.kernel func.path func.name w) := by
  refine Ends.require_bind (fun hfits => ends_rmdir (fun w' h _ => ⟨hfits, ?_⟩) fun _ _ _ ht _ => ht) fun _ => rfl
  rwa [show func.path ++ [func.name] = func.dir from rfl, hclean.2] at h

lemma idle_of_allOrNothing (hfunc : g.function? f = some func)
    (hnodup : KeysNodup Func.addr g.functions) (hdir : FuncDirOk w.tree func) (hgrants : ∀ c, M.Grants c)
    (hunits : func.type = .massStorage → UnitsCanGo func.dir w.tree func)
    (h : AllOrNothing M w g f func) : CallbackIdle M w.tree func := by
  rw [AllOrNothing, usbgRmFunction_plain M.kernel hfunc] at h
  have hdone := removeCallback_done (M := M) hfunc hnodup hdir
  rcases hrun : whenSome (fun remove => onFunction f (remove false)) (functionOps M.kernel func.type).remove
    (w, g) with ⟨_ | e | _, w₁, g₁⟩
  · rw [hrun] at hdone
    rw [bind_ok hrun] at h
    obtain ⟨func', hcore, hs, hresult, hread⟩ := hdone
    dsimp only at hs hresult
    have hgone := usbgRmDir_goes (M := M) (w := w₁) hdir.clean
    rcases hrmdir : usbgRmDir M.kernel func.path func.name w₁ with ⟨_ | e | _, w₂⟩
    · -- the function is gone, so there was nothing in it
      rw [hrmdir] at hgone
      rw [bind_ok (io_ok hrmdir)] at h
      have hempty : ¬ w.tree.MadeBelow func.dir := h
      rcases hresult with ⟨ht, -, hplain⟩ | ⟨hlost, -⟩
      · exact ⟨hplain hgrants hunits, fun _ => ⟨hgone.1, hgrants _, w₂.tree, ht ▸ hgone.2⟩⟩
      · exact absurd hlost.madeBelow hempty
    · -- the function is still there, so nothing has changed
      rw [hrmdir] at hgone
      rw [bind_fail (io_fail hrmdir)] at h
      obtain ⟨ht₂, hg₁⟩ : w₂.tree = w.tree ∧ g₁ = g := h
      have ht₁ : w₁.tree = w.tree := (show w₂.tree = w₁.tree from hgone) ▸ ht₂
      rcases hresult with ⟨-, -, hplain⟩ | ⟨hlost, -⟩
      · refine ⟨hplain hgrants hunits, fun hreads => absurd ?_ (hread hgrants hreads)⟩
        have hkept := function?_setFunction hfunc hcore
        rw [← hs, hg₁, hfunc] at hkept
        exact (Option.some.inj hkept).symm
      · exact absurd ht₁ hlost.ne
    · rw [hrmdir] at hgone
      exact hgone.elim
  · rw [hrun] at hdone
    rw [bind_fail hrun] at h
    obtain ⟨⟨func', -, -, hresult, -⟩, hreads⟩ := hdone
    obtain ⟨ht, -⟩ : w₁.tree = w.tree ∧ g₁ = g := h
    rcases hresult with ⟨-, -, hplain⟩ | ⟨hlost, -⟩
    · have hall := hplain hgrants hunits
      exact ⟨hall, fun h => absurd h (hreads hall)⟩
    · exact absurd ht hlost.ne
  · rw [hrun] at hdone
    exact hdone.elim

/-- A non-recursive `usbg_rm_function` does all or nothing when the callback finds nothing to remove, and,
against a kernel that refuses nothing that could be done, only then. -/
theorem allOrNothing_iff (M : Machine) (w : World Fs) (g : Gadget) (f : Addr) (func : Func)
    (hfunc : g.function? f = some func) (hnodup : KeysNodup Func.addr g.functions)
    (hdir : FuncDirOk w.tree func) :
    (CallbackIdle M w.tree func → AllOrNothing M w g f func) ∧
      ((∀ c, M.Grants c) → (func.type = .massStorage → UnitsCanGo func.dir w.tree func) →
        AllOrNothing M w g f func → CallbackIdle M w.tree func) :=
  ⟨allOrNothing_of_idle hfunc hnodup hdir, idle_of_allOrNothing hfunc hnodup hdir⟩

/-- A gadget with a mass storage function that is bound to its configuration. -/
def gadgetWithUnits : Gadget :=
  { plainGadget with
    configs := [configAt 2 "c".toList 1 [("ms".toList, 0)]]
    functions := [unitsFunc] }

/-- The units of the function, and the link of its binding. -/
def boundTree (ids : List ℕ) : Tree :=
  (unitsTree ids).addAll
    [(["/c".toList, gadgetsDir, "g".toList, configsDir, "c.1".toList], .dir true),
      (["/c".toList, gadgetsDir, "g".toList, configsDir, "c.1".toList, "ms".toList],
        .link (Path.render unitsDir) unitsDir)]

lemma funcDirOk_bound (ids : List ℕ) (hnamed : Named (boundTree ids))
    (hunits : ∀ e ∈ (boundTree ids).entries, e.1.dropLast = unitsFunc.dir →
      scanIndex "lun.".toList (e.1.getLastD []) = .mismatch ∨
        ∃ i < maxLuns, e.1.getLastD [] = lunDir i ∧ e.2.isDir = true) :
    FuncDirOk (worldOf (boundTree ids)).tree unitsFunc := by
  have hclean : unitsFunc.dir.Clean := ⟨by decide, by decide +kernel⟩
  rw [tree_worldOf]
  exact ⟨hclean, hnamed, fun _ => lunsOk_of_entries hclean rfl hunits⟩

/-- The function when the first unit is known. -/
def knownFunc : Func := { unitsFunc with luns := [0], lunsInitiated := true }

lemma funcDirOk_known : FuncDirOk (worldOf (boundTree [0])).tree knownFunc := by
  have h := funcDirOk_bound [0] (by decide +kernel) (by decide +kernel)
  refine ⟨h.clean, h.named, fun _ => { h.units rfl with sound := fun i hi => ?_ }⟩
  obtain rfl := List.mem_singleton.mp hi
  rw [tree_worldOf]
  decide +kernel

/-- It has no other unit, and the mask is not read again. -/
lemma callbackIdle_known : CallbackIdle M T knownFunc := by
  have hread : ∀ d, ¬ MaskFresh d T knownFunc := fun d h => absurd h.1 (by decide)
  refine ⟨fun i hi _ hmask => hmask.elim (fun hmem => ?_) fun h => hread _ h.1, fun h => absurd h.2 (hread _)⟩
  have := List.mem_singleton.mp hmem
  omega

/-- A function with two units, and one with the first unit only. -/
theorem allOrNothing_bound :
    ((CallbackIdle willing (worldOf (boundTree [0, 1])).tree unitsFunc →
        AllOrNothing willing (worldOf (boundTree [0, 1])) gadgetWithUnits 0 unitsFunc) ∧
      ((∀ c, willing.Grants c) →
        (unitsFunc.type = .massStorage → UnitsCanGo unitsFunc.dir (worldOf (boundTree [0, 1])).tree unitsFunc) →
        AllOrNothing willing (worldOf (boundTree [0, 1])) gadgetWithUnits 0 unitsFunc →
          CallbackIdle willing (worldOf (boundTree [0, 1])).tree unitsFunc)) ∧
    AllOrNothing willing (worldOf (boundTree [0])) { gadgetWithUnits with functions := [knownFunc] } 0 knownFunc :=
  ⟨allOrNothing_iff willing (worldOf (boundTree [0, 1])) gadgetWithUnits 0 unitsFunc rfl (by decide +kernel)
      (funcDirOk_bound [0, 1] (by decide +kernel) (by decide +kernel)),
    (allOrNothing_iff willing (worldOf (boundTree [0])) { gadgetWithUnits with functions := [knownFunc] } 0 knownFunc
      rfl (by decide +kernel) funcDirOk_known).1 callbackIdle_known⟩

/-- How removing a function ends, and whether there is a directory at the path then. -/
def rmAndLook (M : Machine) (w : World Fs) (g : Gadget) (f : Addr) (p : Path) : Option UsbgError × Bool :=
  match usbgRmFunction M.kernel (functionOps M.kernel) f false (w, g) with
  | (.fail e, s) => (some e, s.1.tree.IsDir p)
  | (_, s) => (none, s.1.tree.IsDir p)

lemma not_allOrNothing_of_gone {p : Path} {e : UsbgError} (hrun : rmAndLook M w g f p = (some e, false))
    (hdir : w.tree.IsDir p) : ¬ AllOrNothing M w g f func := by
  intro h
  rw [AllOrNothing] at h
  rw [rmAndLook] at hrun
  split at hrun
  · next e' s hfail =>
    rw [hfail] at h
    have hgone := (Prod.mk.inj hrun).2
    have htree : s.1.tree = w.tree := h.1
    rw [htree, decide_eq_false_iff_not] at hgone
    exact hgone hdir
  · cases hrun

lemma rmAndLook_bound :
    rmAndLook willing (worldOf (boundTree [0, 1])) gadgetWithUnits 0 (lunAt unitsDir 1) = (some .busy, false) := by
  decide +kernel

/-- The function is bound, so its directory stays; but its second unit is gone. -/
theorem allOrNothing_fails :
    ¬ AllOrNothing willing (worldOf (boundTree [0, 1])) gadgetWithUnits 0 unitsFunc :=
  not_allOrNothing_of_gone rmAndLook_bound (by decide +kernel)

end Libusbgx
