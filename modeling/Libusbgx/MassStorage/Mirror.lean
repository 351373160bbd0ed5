import Libusbgx.Base.Run
import Libusbgx.Configfs.Shape
import Libusbgx.MassStorage.SetAttrs

/-!
# The mask mirrors the tree

The mask of units is filled when it is first needed, from a scan that may fail and is then tried
again, and five functions change it.  Over any sequence of their calls, whichever system calls fail
in them, a unit in the mask is there, and once the mask has been read it has all units that are
there.  The one thing that must not fail is the `rmdir` with which `usbg_f_ms_create_lun` takes back
the unit it has made itself.
-/

namespace Libusbgx

open Prog Machine

variable {M : Machine} {d : Path} {T T' : Tree} {f f' : Func} {w w' w₀ : World Fs} {i j : ℕ}

/-! ## Between two calls -/

/-- What holds between two calls: the mask knows of no unit that is not there, and of all units when
it has been read; and where a unit could be made there is nothing that would keep it from being
removed again. -/
structure Mirrors (d : Path) (T : Tree) (f : Func) : Prop where
  ok : LunsOk d T f
  complete : LunsComplete d T f
  free : ∀ i < maxLuns, UnitFree d T i

/-- A step on one unit puts nothing below another place of a unit, and no link to it. -/
lemma UnitStep.unitFree (h : UnitStep d i T T' f f') (hi : i < maxLuns) (hj : j < maxLuns)
    (hfree : ¬ T.MadeBelow (lunAt d j) ∧ ¬ T.Pinned (lunAt d j)) :
    ¬ T'.MadeBelow (lunAt d j) ∧ ¬ T'.Pinned (lunAt d j) := by
  obtain ⟨hbelow, hpinned⟩ := hfree
  constructor
  · intro hb
    obtain ⟨q, n, hn, hpre, hq, hmade⟩ := FileTree.madeBelow_iff.mp hb
    have hqi : q ≠ lunAt d i := by
      rintro rfl
      by_cases hji : j = i
      · exact hq (by rw [hji])
      · exact not_lunAt_below hj hi hji List.prefix_rfl hpre
    exact hbelow (FileTree.madeBelow_iff.mpr ⟨q, n, h.made q n hn hmade hqi, hpre, hq, hmade⟩)
  · intro hp
    obtain ⟨q, text, hlink⟩ := FileTree.pinned_iff.mp hp
    have hqi : q ≠ lunAt d i := by
      rintro rfl
      -- at the place of a unit there is no link
      obtain ⟨b, hb⟩ := FileTree.isDir_iff.mp ((h.ok.isDir hi).mpr (by rw [hlink]; simp))
      rw [hlink] at hb
      cases hb
    exact hpinned (FileTree.pinned_iff.mpr ⟨q, text, h.made q _ hlink rfl hqi⟩)

namespace Mirrors

lemma unitStep (h : Mirrors d T f) (hstep : UnitStep d i T T' f f') (hi : i < maxLuns)
    (hcomplete : LunsComplete d T' f')
    (hself : T'.get (lunAt d i) = none → ¬ T.MadeBelow (lunAt d i) ∧ ¬ T.Pinned (lunAt d i)) :
    Mirrors d T' f' where
  ok := hstep.ok
  complete := hcomplete
  free j hj hnone := by
    refine hstep.unitFree hi hj ?_
    by_cases hji : j = i
    · rw [hji] at hnone ⊢
      exact hself hnone
    · refine h.free j hj ?_
      rw [← hstep.outside _ (not_lunAt_below hi hj (Ne.symm hji) List.prefix_rfl)]
      exact hnone

lemma maskRead (h : Mirrors d T f) (hread : MaskRead d T f f') : Mirrors d T f' :=
  ⟨hread.ok, hread.complete h.complete, h.free⟩

/-- Writing files changes neither the units nor what could be in their way. -/
lemma rewritten {p : Path} (h : Mirrors d T f) (hrew : Rewritten p T T') : Mirrors d T' f where
  ok := hrew.lunsOk h.ok
  complete hknown j hj hdir := h.complete hknown j hj ((hrew.isDir _).mp hdir)
  free j hj hnone := by
    have hback : ∀ q n, T'.get q = some n → n.made = true → T.get q = some n := fun q n hn hmade =>
      (hrew.get_eq_some (by cases n <;> first | rfl | cases hmade)).mp hn
    have hnone' : T.get (lunAt d j) = none := by
      rcases hrew (lunAt d j) with heq | ⟨-, c, c', -, hc'⟩
      · exact heq.symm.trans hnone
      · rw [hnone] at hc'
        cases hc'
    obtain ⟨hbelow, hpinned⟩ := h.free j hj hnone'
    refine ⟨fun hb => hbelow ?_, fun hp => hpinned ?_⟩
    · obtain ⟨q, n, hn, hpre, hq, hmade⟩ := FileTree.madeBelow_iff.mp hb
      exact FileTree.madeBelow_iff.mpr ⟨q, n, hback q n hn hmade, hpre, hq, hmade⟩
    · obtain ⟨q, text, hlink⟩ := FileTree.pinned_iff.mp hp
      exact FileTree.pinned_iff.mpr ⟨q, text, hback q _ hlink rfl⟩

end Mirrors

/-! ## Within a call -/

lemma UndoRefused.later {p : Path} (h : UndoRefused M p w₀ w) (hlog : w.sys.log <:+ w'.sys.log) :
    UndoRefused M p w₀ w' := by
  obtain ⟨later, between, earlier, heq, hfault⟩ := h
  obtain ⟨more, hmore⟩ := hlog
  refine ⟨more ++ later, between, earlier, ?_, hfault⟩
  rw [← hmore, heq, List.append_assoc]

lemma UndoRefused.earlier {p : Path} (h : UndoRefused M p w w') (hlog : w₀.sys.log <:+ w.sys.log) :
    UndoRefused M p w₀ w' := by
  obtain ⟨later, between, earlier, heq, hfault⟩ := h
  obtain ⟨more, hmore⟩ := hlog
  have hlog : earlier ++ w.sys.log = earlier ++ more ++ w₀.sys.log := by rw [← hmore, List.append_assoc]
  rw [hlog] at heq hfault
  exact ⟨later, between, earlier ++ more, heq, hfault⟩

/-- What holds at every point of a call that was started in the world `w₀`, unless the kernel has refused
to take back a new unit. -/
def Mirrored (M : Machine) (d : Path) (w₀ : World Fs) (s : World Fs × Func) : Prop :=
  w₀.sys.log <:+ s.1.sys.log ∧ ((∃ p, UndoRefused M p w₀ s.1) ∨ Mirrors d s.1.tree s.2)

/-- The program keeps the mask in step with the units. -/
def KeepsMirrored {α : Type} (M : Machine) (d : Path) (w₀ : World Fs) (m : On Fs Func α) : Prop :=
  Triple (Mirrored M d w₀) m (fun _ => Mirrored M d w₀) (fun _ => Mirrored M d w₀) True

/-- It is enough to look at what a program does after the mask was in step. -/
lemma KeepsMirrored.of_ends {α : Type} {m : On Fs Func α}
    (hlog : ∀ l c, Keeps (OnCore (fun w => l <:+ w.sys.log) c) m)
    (h : ∀ w f, Mirrors d w.tree f → Ends (fun _ s => Mirrors d s.1.tree s.2)
      (fun _ s => (∃ p, UndoRefused M p w s.1) ∨ Mirrors d s.1.tree s.2) True (m (w, f))) :
    KeepsMirrored M d w₀ m := by
  rintro ⟨w, f⟩ ⟨hstart, hs⟩
  have hgrows : w.sys.log <:+ (m (w, f)).2.1.sys.log := (hlog w.sys.log f.core (w, f) ⟨List.suffix_rfl, rfl⟩).1
  rcases hs with ⟨p, hrefused⟩ | hmirrors
  · have hlater : ∀ o t, m (w, f) = (o, t) → Mirrored M d w₀ t := by
      intro o t hrun
      rw [hrun] at hgrows
      exact ⟨hstart.trans hgrows, .inl ⟨p, hrefused.later hgrows⟩⟩
    exact Ends.intro (fun a t => hlater _ t) (fun e t => hlater _ t) fun _ _ => trivial
  · refine ((h w f hmirrors).and_keeps (hlog w.sys.log f.core) ⟨List.suffix_rfl, rfl⟩).mono ?_ ?_
    · rintro a t ⟨hmirrors', hgrows, -⟩
      exact ⟨hstart.trans hgrows, .inr hmirrors'⟩
    · rintro e t ⟨⟨p, hrefused⟩ | hmirrors', hgrows, -⟩
      · exact ⟨hstart.trans hgrows, .inl ⟨p, hrefused.earlier hstart⟩⟩
      · exact ⟨hstart.trans hgrows, .inr hmirrors'⟩

/-- The log only grows, in every program that is made of system calls. -/
lemma stableIn_log (M : Machine) (l : List Syscall) : StableIn M.kernel [] fun w => l <:+ w.sys.log :=
  (M.stable_log l).toStableIn

/-! ## The functions -/

section Functions

lemma keepsMirrored_getLunMask : KeepsMirrored M d w₀ (getLunMask M.kernel) :=
  .of_ends (fun l _ => (stableIn_log M l).keeps_getLunMask List.nil_prefix) fun w f h =>
    (getLunMask_ends h.ok).mono_undef (fun _ s hs => by
      rw [hs.1]
      exact h.maskRead hs.2.1) (fun _ _ hs => hs.elim) fun hs => hs.elim

lemma keepsMirrored_usbgFMsSetStall (stall : Bool) : KeepsMirrored M d w₀ (usbgFMsSetStall M.kernel stall) :=
  .of_ends (fun l _ => (stableIn_log M l).keeps_usbgFMsSetStall List.nil_prefix) fun w f h =>
    (usbgFMsSetStall_rewrites stall h.ok).mono_undef (fun _ s hs => by
      rw [hs.1]
      exact h.rewritten hs.2.2.1) (fun _ s hs => .inr (by
      rw [hs.1, hs.2]
      exact h)) fun hs => hs.elim

lemma keepsMirrored_usbgFMsSetLunAttrVal {a : Attr} (ha : a ∈ msLunAttr) (i : ℕ) (val : AttrVal) :
    KeepsMirrored M d w₀ (usbgFMsSetLunAttrVal M.kernel i a val) :=
  .of_ends (fun l _ => (stableIn_log M l).keeps_usbgFMsSetLunAttrVal List.nil_prefix) fun w f h => by
    refine (usbgFMsSetLunAttrVal_ends h.ok ha val).mono ?_ fun _ s hs => .inr ?_
    · rintro - s ⟨hfunc, t, content, -, hfile, ht⟩
      rw [hfunc, ht]
      exact h.rewritten (Rewritten.replace hfile)
    · rw [hs.1, hs.2]
      exact h

lemma keepsMirrored_usbgFMsSetLunAttrs (i : ℕ) (l : MsLunAttrs) :
    KeepsMirrored M d w₀ (usbgFMsSetLunAttrs M.kernel i l) :=
  .of_ends (fun l _ => (stableIn_log M l).keeps_usbgFMsSetLunAttrs List.nil_prefix) fun w f h =>
    (usbgFMsSetLunAttrs_ends h.ok l).mono (fun _ s hs => by
      rw [hs.1]
      exact h.rewritten hs.2.1) fun _ s hs => .inr (by
      rw [hs.1]
      exact h.rewritten hs.2)

/-- What is done with a negative number of a unit is not defined, and a number that is too large is refused. -/
lemma keepsMirrored_lunId {id : ℤ} {m : List ℕ → On Fs Func Unit}
    (h : ∀ i : ℕ, i < maxLuns → id = i → KeepsMirrored M d w₀ (do
      require (id < maxLuns) .invalidParam
      let luns ← getLunMask M.kernel
      if id < 0 then undef else m luns)) :
    KeepsMirrored M d w₀ (do
      require (id < maxLuns) .invalidParam
      let luns ← getLunMask M.kernel
      if id < 0 then undef else m luns) := by
  by_cases hlt : id < maxLuns
  · by_cases hneg : id < 0
    · refine .bind (.require (fun _ _ hs => hs) fun _ _ hs => hs) fun _ => .bind keepsMirrored_getLunMask fun luns => ?_
      rw [if_pos hneg]
      exact .undef fun _ _ => trivial
    · exact h id.toNat (by omega) (by omega)
  · rw [require, if_neg hlt]
    exact fun s hs => hs

lemma keepsMirrored_usbgFMsCreateLun (id : ℤ) (l : Option MsLunAttrs) :
    KeepsMirrored M d w₀ (usbgFMsCreateLun M.kernel id l) := by
  refine keepsMirrored_lunId fun i hi hid => ?_
  subst hid
  refine .of_ends (fun l' _ => (stableIn_log M l').keeps_usbgFMsCreateLun List.nil_prefix) fun w f h => ?_
  refine (usbgFMsCreateLun_ends h.ok hi l).mono ?_ ?_
  · intro _ s hs
    refine h.unitStep hs.step hi (hs.complete h.complete) fun hnone => ?_
    have hpresent := hs.present
    rw [FileTree.IsDir, hnone] at hpresent
    cases hpresent
  · intro e s hs
    by_cases hback : s.1.tree.IsDir (lunAt d i) → w.tree.IsDir (lunAt d i)
    · exact .inr (h.unitStep hs.step hi (hs.complete hback h.complete) fun hnone => h.free i hi (hs.absent hnone))
    · rw [Classical.not_imp] at hback
      exact .inl ⟨_, (hs.noNew (h.free i hi) hback.1).resolve_left hback.2⟩

lemma keepsMirrored_usbgFMsRmLun (id : ℤ) : KeepsMirrored M d w₀ (usbgFMsRmLun M.kernel id) := by
  refine keepsMirrored_lunId fun i hi hid => ?_
  subst hid
  refine .of_ends (fun l' _ => (stableIn_log M l').keeps_usbgFMsRmLun List.nil_prefix) fun w f h => ?_
  refine (usbgFMsRmLun_ends h.ok hi).mono_undef ?_ ?_ fun hs => hs.elim
  · rintro - s ⟨hstep, -, hcomplete, -, hrmdir⟩
    obtain ⟨-, hbelow, hpinned, -⟩ := rmdir_eq_ok.mp hrmdir
    exact h.unitStep hstep hi (hcomplete h.complete) fun _ => ⟨hbelow, hpinned⟩
  · rintro - s ⟨ht, hread, -⟩
    refine .inr ?_
    rw [ht]
    exact h.maskRead hread

/-- Nothing is done to the world or the function when the function is looked at. -/
lemma keepsMirrored_self {α : Type} {k : Func → On Fs Func α} (h : ∀ f, KeepsMirrored M d w₀ (k f)) :
    KeepsMirrored M d w₀ (self >>= k) :=
  fun s hs => h s.2 s hs

lemma keepsMirrored_deref {α β : Type} {o : Option β} {k : β → On Fs Func α}
    (h : ∀ b, o = some b → KeepsMirrored M d w₀ (k b)) : KeepsMirrored M d w₀ (deref o >>= k) :=
  fun s hs => Ends.deref_bind (fun b hb => h b hb s hs) fun _ => trivial

lemma keepsMirrored_forEach {β : Type} {m : β → On Fs Func Unit} {l : List β}
    (h : ∀ b ∈ l, KeepsMirrored M d w₀ (m b)) : KeepsMirrored M d w₀ (forEach m l) :=
  fun _ hs => Ends.forEach (fun b hb s hs => h b hb s hs) hs

lemma keepsMirrored_when {c : Prop} [Decidable c] {m : On Fs Func Unit} (h : KeepsMirrored M d w₀ m) :
    KeepsMirrored M d w₀ (when c m) :=
  .when (fun _ => h) fun _ _ hs => hs

lemma keepsMirrored_msSetAttrsRound (attrs : MsAttrs) (toBe : List ℤ) (i : ℕ) :
    KeepsMirrored M d w₀ (msSetAttrsRound M.kernel attrs toBe i) :=
  keepsMirrored_self fun _ => .ite
    (fun _ => .ite (fun _ => keepsMirrored_deref fun _ _ => keepsMirrored_deref fun l _ =>
      keepsMirrored_usbgFMsSetLunAttrs i l) fun _ => keepsMirrored_usbgFMsRmLun i)
    fun _ => keepsMirrored_when (keepsMirrored_deref fun l _ => keepsMirrored_usbgFMsCreateLun i l)

lemma keepsMirrored_msCleanupRound (toBe : List ℤ) (i : ℕ) :
    KeepsMirrored M d w₀ (msCleanupRound M.kernel toBe i) :=
  keepsMirrored_self fun _ => keepsMirrored_when (.bind (R := fun _ => Mirrored M d w₀)
    (.attempt (keepsMirrored_usbgFMsRmLun i)) fun _ => .pure fun _ hs => hs)

lemma keepsMirrored_msSetAttrsLoop (attrs : MsAttrs) (toBe : List ℤ) (done todo : List ℕ) :
    KeepsMirrored M d w₀ (msSetAttrsLoop M.kernel attrs toBe done todo) := by
  induction todo generalizing done with
  | nil => exact .pure fun _ hs => hs
  | cons i todo ih =>
    refine .bind (.onFail (keepsMirrored_msSetAttrsRound attrs toBe i) fun _ => ?_) fun _ => ih _
    exact keepsMirrored_forEach fun j _ => keepsMirrored_msCleanupRound toBe j

lemma keepsMirrored_usbgFMsSetAttrs (attrs : MsAttrs) : KeepsMirrored M d w₀ (usbgFMsSetAttrs M.kernel attrs) :=
  .bind (keepsMirrored_usbgFMsSetStall attrs.stall) fun _ => .bind keepsMirrored_getLunMask fun _ =>
    .bind keepsMirrored_getLunMask fun _ => keepsMirrored_deref fun toBe _ =>
      keepsMirrored_msSetAttrsLoop attrs toBe [] _

/-- A value that was looked up in the file. -/
lemma keepsMirrored_ofExcept {α β : Type} {x : Except UsbgError β} {k : β → On Fs Func α}
    (h : ∀ b, KeepsMirrored M d w₀ (k b)) : KeepsMirrored M d w₀ (ofExcept x >>= k) := by
  cases x with
  | error e => exact fun s hs => hs
  | ok b => exact fun s hs => h b s hs

lemma keepsMirrored_msImportLunAttrs (i : ℕ) (root : Setting) :
    KeepsMirrored M d w₀ (msImportLunAttrs M.kernel i root) := by
  refine keepsMirrored_forEach fun a ha => keepsMirrored_ofExcept fun r => ?_
  cases r with
  | none => exact .pure fun _ hs => hs
  | some val => exact keepsMirrored_usbgFMsSetLunAttrVal ha i val

lemma keepsMirrored_msImportLun (i : ℕ) (node : Setting) : KeepsMirrored M d w₀ (msImportLun M.kernel i node) := by
  refine .bind (.require (fun _ _ hs => hs) fun _ _ hs => hs) fun _ => keepsMirrored_self fun f => ?_
  refine .bind (R := fun _ => Mirrored M d w₀) (.ite (fun _ => .undef fun _ _ => trivial) fun _ => ?_)
    fun _ => keepsMirrored_msImportLunAttrs i node
  exact keepsMirrored_when (keepsMirrored_usbgFMsCreateLun i none)

lemma keepsMirrored_msLibconfigImport (root : Setting) :
    KeepsMirrored M d w₀ (msLibconfigImport M.kernel root) := by
  refine keepsMirrored_ofExcept fun stall => .bind (R := fun _ => Mirrored M d w₀)
    (.whenSome (fun stall _ => keepsMirrored_usbgFMsSetStall stall) fun _ _ hs => hs) fun _ => ?_
  cases root.getMember "luns".toList with
  | none => exact .fail fun _ hs => hs
  | some node =>
    refine .bind (.require (fun _ _ hs => hs) fun _ _ hs => hs) fun _ => .bind keepsMirrored_getLunMask fun _ => ?_
    exact keepsMirrored_forEach fun ni _ => keepsMirrored_msImportLun ni.2 ni.1

lemma keepsMirrored_msRemove (opts : RmOpts) : KeepsMirrored M d w₀ (msRemove M.kernel opts) :=
  .bind keepsMirrored_getLunMask fun _ => keepsMirrored_forEach fun i _ => keepsMirrored_self fun _ =>
    keepsMirrored_when (keepsMirrored_usbgFMsRmLun i)

end Functions

/-! ## Runs -/

/-- The calls that change the units of a function. -/
inductive MsCall where
  | createLun (lunId : ℤ) (lattrs : Option MsLunAttrs)
  | rmLun (lunId : ℤ)
  | setAttrs (attrs : MsAttrs)
  | libconfigImport (root : Setting)
  | remove (opts : RmOpts)

/-- A call on a function. -/
def MsCall.run (K : Kernel Fs) : MsCall → On Fs Func Unit
  | createLun lunId lattrs => usbgFMsCreateLun K lunId lattrs
  | rmLun lunId => usbgFMsRmLun K lunId
  | setAttrs attrs => usbgFMsSetAttrs K attrs
  | libconfigImport root => msLibconfigImport K root
  | remove opts => msRemove K opts

/-- In the call the kernel does not refuse to take back a unit that the call has made. -/
def MsCall.Undoes (M : Machine) (c : MsCall) (s : World Fs × Func) : Prop :=
  ∀ p, ¬ UndoRefused M p s.1 (c.run M.kernel s).2.1

/-- The units in the mask are there, and when the mask has been read they are all units that are
there. -/
structure LunsMirrored (d : Path) (T : Tree) (f : Func) : Prop where
  present : ∀ k < maxLuns, k ∈ f.luns → T.IsDir (lunAt d k)
  exact : f.lunsInitiated = true → ∀ k < maxLuns, (k ∈ f.luns ↔ T.IsDir (lunAt d k))

lemma Mirrors.lunsMirrored (h : Mirrors d T f) : LunsMirrored d T f where
  present k _ hk := (h.ok.sound k hk).2
  exact hknown k hk := ⟨fun hmem => (h.ok.sound k hmem).2, h.complete hknown k hk⟩

/-- One call. -/
lemma MsCall.run_mirrors (c : MsCall) {s : World Fs × Func} (hundo : c.Undoes M s)
    (h : Mirrors d s.1.tree s.2) :
    Ends (fun _ t => Mirrors d t.1.tree t.2) (fun _ t => Mirrors d t.1.tree t.2) True (c.run M.kernel s) := by
  have hkeeps : KeepsMirrored M d s.1 (c.run M.kernel) := by
    cases c with
    | createLun lunId lattrs => exact keepsMirrored_usbgFMsCreateLun lunId lattrs
    | rmLun lunId => exact keepsMirrored_usbgFMsRmLun lunId
    | setAttrs attrs => exact keepsMirrored_usbgFMsSetAttrs attrs
    | libconfigImport root => exact keepsMirrored_msLibconfigImport root
    | remove opts => exact keepsMirrored_msRemove opts
  have hends := (hkeeps s ⟨List.suffix_rfl, .inr h⟩).run
  have hresolve : ∀ {o t}, c.run M.kernel s = (o, t) → Mirrored M d s.1 t → Mirrors d t.1.tree t.2 := by
    rintro o t hrun ⟨-, ⟨p, hrefused⟩ | hmirrors⟩
    · have hnot := hundo p
      rw [hrun] at hnot
      exact absurd hrefused hnot
    · exact hmirrors
  refine Ends.intro (fun a t hrun => ?_) (fun e t hrun => ?_) fun _ _ => trivial
  · rw [hrun] at hends
    exact hresolve hrun hends.1
  · rw [hrun] at hends
    exact hresolve hrun hends

/-- In a tree in which every node is in a directory and every link leads to one, a place where nothing is
is free. -/
lemma unitFree_of_rooted (hrooted : Rooted T) (hlinks : LinksAlive T) : UnitFree d T i := by
  intro hnone
  have hnot : ¬ T.IsDir (lunAt d i) := by
    rw [FileTree.IsDir, hnone]
    simp
  refine ⟨fun hb => hnot ?_, fun hp => hnot ?_⟩
  · obtain ⟨q, n, hn, hpre, hq, -⟩ := FileTree.madeBelow_iff.mp hb
    exact hrooted.isDir_of_prefix hn hpre (Ne.symm hq) (by simp [lunAt])
  · obtain ⟨q, text, hlink⟩ := FileTree.pinned_iff.mp hp
    exact hlinks q text _ hlink

/-- In the directory of a function the only entries that look like units are units. -/
def HoldsUnits (d : Path) (T : Tree) : Prop :=
  ∀ name n, T.get (d ++ [name]) = some n →
    scanIndex "lun.".toList name = .mismatch ∨ ∃ i < maxLuns, name = lunDir i ∧ n.isDir = true

/-- After any sequence of calls, the mask of a function mirrors the units in its directory. -/
theorem lunsMirrored_of_calls (M : Machine) (w : World Fs) (f : Func) (hclean : f.dir.Clean)
    (hrooted : Rooted w.tree) (hlinks : LinksAlive w.tree)
    (hunits : HoldsUnits f.dir w.tree) (hluns : f.luns = []) (hnew : f.lunsInitiated = false)
    (t : World Fs × Func) (hrun : Calls (MsCall.run M.kernel) (MsCall.Undoes M) (w, f) t) :
    LunsMirrored f.dir t.1.tree t.2 := by
  have hstart : Mirrors f.dir w.tree f := by
    refine ⟨⟨rfl, hclean, hunits, fun i hi => ?_⟩, fun hknown => ?_, fun i _ => unitFree_of_rooted hrooted hlinks⟩
    · rw [hluns] at hi
      cases hi
    · rw [hnew] at hknown
      cases hknown
  have hend : Mirrors f.dir t.1.tree t.2 :=
    hrun.invariant (fun s => Mirrors f.dir s.1.tree s.2) (fun c s hc hs => c.run_mirrors hc hs) hstart
  exact hend.lunsMirrored

/-! ## An example -/

/-- The function with its first unit, in a whole tree. -/
def mirrorTree : Tree := (unitsTree [0]).addAll (unitsDir.inits.map fun p => (p, .dir false))

/-- A kernel that refuses to make the third unit. -/
def mirrorMachine : Machine := unitsMachine [lunDir 2]

/-- The second unit is created. -/
def mirrorMade : Outcome UsbgError Unit × World Fs × Func :=
  MsCall.run mirrorMachine.kernel (.createLun 1 none) (worldOf mirrorTree, unitsFunc)

/-- And three units are asked for, of which the last cannot be made. -/
def mirrorSet : Outcome UsbgError Unit × World Fs × Func :=
  MsCall.run mirrorMachine.kernel (.setAttrs threeUnits) mirrorMade.2

lemma undoes_mirrorMachine (c : MsCall) (s : World Fs × Func) : c.Undoes mirrorMachine s := by
  rintro p ⟨later, between, earlier, -, hfault⟩
  exact hfault rfl

lemma mirrorMade_defined : mirrorMade.1 ≠ .undef := by decide +kernel

lemma mirrorSet_defined : mirrorSet.1 ≠ .undef := by decide +kernel

lemma calls_mirrorMade :
    Calls (MsCall.run mirrorMachine.kernel) (MsCall.Undoes mirrorMachine) (worldOf mirrorTree, unitsFunc)
      mirrorMade.2 := by
  rw [mirrorMade]
  exact (Calls.refl _).call (.createLun 1 none) (undoes_mirrorMachine _ _) mirrorMade_defined

lemma calls_mirrorSet :
    Calls (MsCall.run mirrorMachine.kernel) (MsCall.Undoes mirrorMachine) (worldOf mirrorTree, unitsFunc)
      mirrorSet.2 := by
  rw [mirrorSet]
  exact calls_mirrorMade.call (.setAttrs threeUnits) (undoes_mirrorMachine _ _) mirrorSet_defined

lemma rooted_mirrorTree : Rooted mirrorTree := rooted_of_entries (by decide +kernel)

lemma linksAlive_mirrorTree : LinksAlive mirrorTree := linksAlive_of_entries (by decide +kernel)

lemma holdsUnits_mirrorTree : HoldsUnits unitsFunc.dir mirrorTree :=
  (lunsOk_of_entries (f := unitsFunc) ⟨by decide, by decide +kernel⟩ rfl (by decide +kernel)).names

/-- After the two calls. -/
theorem lunsMirrored_mirrorSet : LunsMirrored unitsFunc.dir mirrorSet.2.1.tree mirrorSet.2.2 :=
  lunsMirrored_of_calls mirrorMachine (worldOf mirrorTree) unitsFunc ⟨by decide, by decide +kernel⟩
    rooted_mirrorTree linksAlive_mirrorTree holdsUnits_mirrorTree rfl rfl
    mirrorSet.2 calls_mirrorSet

end Libusbgx
