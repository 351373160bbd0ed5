import Libusbgx.Base.Run
import Libusbgx.Mirror.Gadgets
import Libusbgx.Import.Atomic
import Libusbgx.Mirror.Opened
import Libusbgx.Mirror.Setters

/-!
# Runs of the library

Whatever calls are made, in whatever order, and whatever the kernel refuses: the lists of every gadget mirror its
directory.  Nothing but a constructor that fails can leave something in the tree that is in no list.
-/

namespace Libusbgx

open Prog Machine

variable {M : Machine} {cfg name : CStr} {N : Naming} {w w' : World Fs} {g : Gadget} {t t' : World Fs × State}
  {tidy : Prop} {file : ConfigFile}

/-! ## Imports of gadgets -/

/-- `usbg_import_gadget_run` -/
lemma usbgImportGadgetRun_mirror (hM : Configfs M cfg) (hN : N.Renders cfg) (h : StateInv cfg N tidy t)
    {root : Setting} (hroot : GadgetLabelled N root) :
    Ends (fun _ => StateInv cfg N tidy)
      (fun _ t' => StateInv cfg N (LeftListed t t' [cfg, gadgetsDir, name] ∧ tidy) t')
      True (usbgImportGadgetRun M.kernel (functionOps M.kernel) root name t) := by
  refine Ends.bind ((createGadgetWith_mirror hM h.1 fun _ _ _ _ _ => .bind (.pure _) fun _ => .pure _).mono
    (fun _ _ ht => ht) fun _ _ ht => ⟨h.1.noGadget ht, fun hp => h.1.tidy_noGadget ht hp.1 (h.2 hp.2)⟩) ?_
  rintro - ⟨w₁, s₁⟩ ⟨gad, s', rfl, hnew, rfl⟩
  have hinv : StateInv cfg N tidy (w₁, { s' with gadgets := insertSorted Gadget.name gad s'.gadgets }) :=
    ⟨hnew.insert h.1, fun hp => hnew.insert_tidy h.1 (h.2 hp)⟩
  refine Ends.bind (R := fun _ => StateInv cfg N tidy) ?_ fun _ _ ht => ht
  refine (Upholds.onFail (I := StateInv cfg N tidy) (fun t ht => ?_) (usbgRmGadget_mirror hM _ true) _ hinv).mono
    (fun _ _ ht => ht) fun _ _ ht => ⟨ht.1, fun hp => ht.2 hp.2⟩
  exact (onGadget_mirror (fun _ => True) ht fun g _ _ hg => importGadgetContent_mirror hM hN hg hroot).mono
    (fun _ _ ht => ht) fun _ _ ht => ⟨ht.1, fun hp => ht.2 ⟨trivial, hp⟩⟩

/-- `usbg_import_gadget` -/
lemma usbgImportGadget_mirror (hM : Configfs M cfg) (hN : N.Renders cfg) (h : StateInv cfg N tidy t)
    (hfile : ∀ root, file = .parsed root → GadgetLabelled N root) :
    Ends (fun _ => StateInv cfg N tidy)
      (fun _ t' => StateInv cfg N (LeftListed t t' [cfg, gadgetsDir, name] ∧ tidy) t')
      True (usbgImportGadget M.kernel (functionOps M.kernel) file name t) := by
  rw [usbgImportGadget]
  cases file with
  | failed text line =>
    have hrecord : StateInv cfg N tidy (t.1, t.2.setFailedImport (some (.failed text line))) :=
      h.of_tree rfl (le_refl _) rfl rfl
    exact ⟨hrecord.1, fun hp => hrecord.2 hp.2⟩
  | parsed root =>
    exact Ends.attempt_bind (usbgImportGadgetRun_mirror hM hN h (hfile root rfl))
      (fun _ _ ht => ht.of_tree rfl (le_refl _) rfl rfl) fun _ _ ht => ht.of_tree rfl (le_refl _) rfl rfl

/-! ## Names -/

/-- A name that is one step down in a path.  A real kernel follows other names to wherever they lead; the kernel of the
model refuses to make anything there. -/
def StepDown (name : CStr) : Prop := '/' ∉ name ∧ name ≠ ".".toList ∧ name ≠ "..".toList

/-- The instance that the scheme of a function gives. -/
def FunctionNamed (root : Setting) : Prop :=
  ∀ inst ∈ (root.getMember "instance".toList).bind Setting.getString, '/' ∉ inst

/-- The names that the scheme of a binding gives. -/
structure BindingNamed (root : Setting) : Prop where
  name : ∀ name ∈ schemeName root, StepDown name
  function : ∀ node ∈ root.getMember "function".toList, FunctionNamed node

/-- The names that the scheme of a configuration gives. -/
structure ConfigNamed (root : Setting) : Prop where
  label : ∀ label ∈ schemeName root, '/' ∉ label
  functions : ∀ functions ∈ root.getMember "functions".toList, ∀ node ∈ functions.elems, BindingNamed node

/-- The names that the scheme of a gadget gives. -/
structure GadgetNamed (root : Setting) : Prop where
  functions : ∀ functions ∈ root.getMember "functions".toList, ∀ node ∈ functions.elems, FunctionNamed node
  configs : ∀ configs ∈ root.getMember "configs".toList, ∀ node ∈ configs.elems, ConfigNamed node

/-- The formats of a video function are named by the directories on the way to them. -/
def FunctionAttrs.Named : FunctionAttrs → Prop
  | uvc formats => ∀ a ∈ formats, ∀ name ∈ splitSlash a.format, StepDown name
  | _ => True

/-- The names that a call on a function gives. -/
def FunctionCall.Named : FunctionCall → Prop
  | setAttrs attrs => attrs.Named
  | setInterfOsDesc iname _ => '/' ∉ iname
  | _ => True

/-! ## Calls on a gadget -/

/-- A call that is given a configuration. -/
def withConfig (a : Addr) (m : Config → Io Fs Unit) : On Fs Gadget Unit := do
  let g ← self
  let c ← deref (g.config? a)
  io (m c)

/-- A call that is given a function. -/
def withFunction (a : Addr) (m : Func → On Fs Gadget Unit) : On Fs Gadget Unit := do
  let g ← self
  let f ← deref (g.function? a)
  m f

/-- The calls on one gadget; its functions and configurations are given by their addresses. -/
inductive GadgetCall where
  | createFunction (type : FunctionType) (inst : CStr) (attrs : Option FunctionAttrs)
  | createConfig (id : ℤ) (label : Option CStr) (attrs : Option ConfigAttrs) (strs : Option ConfigStrs)
  | addConfigFunction (c : Addr) (name : Option CStr) (f : Addr)
  | rmBinding (c : Addr) (b : Binding)
  | rmConfig (c : Addr) (opts : RmOpts)
  | rmFunction (f : Addr) (opts : RmOpts)
  | setOsDescConfig (c : Option Addr)
  | importFunction (file : ConfigFile) (inst : CStr)
  | importConfig (file : ConfigFile) (id : ℤ)
  | set (s : GadgetSetter)
  | setConfig (c : Addr) (s : ConfigSetter)
  | function (f : Addr) (c : FunctionCall)

namespace GadgetCall

/-- The call, without the value it returns. -/
def run (M : Machine) : GadgetCall → On Fs Gadget Unit
  | createFunction type inst attrs => do
    let _ ← usbgCreateFunction M.kernel (functionOps M.kernel) type inst attrs
    pure ()
  | createConfig id label attrs strs => do
    let _ ← usbgCreateConfig M.kernel id label attrs strs
    pure ()
  | addConfigFunction c name f => withFunction f fun f => onConfig c (usbgAddConfigFunction M.kernel name f)
  | rmBinding c b => onConfig c (usbgRmBinding M.kernel b)
  | rmConfig c opts => usbgRmConfig M.kernel c opts
  | rmFunction f opts => usbgRmFunction M.kernel (functionOps M.kernel) f opts
  | setOsDescConfig c => usbgSetOsDescConfig M.kernel c
  | importFunction file inst => do
    let _ ← usbgImportFunction M.kernel (functionOps M.kernel) file inst
    pure ()
  | importConfig file id => do
    let _ ← usbgImportConfig M.kernel (functionOps M.kernel) file id
    pure ()
  | set s => do
    let g ← self
    io (s.run M g)
  | setConfig c s => withConfig c (s.run M)
  | function f c => onFunction f (c.run M)

/-- The directory that the call is to make. -/
def newDir (g : Gadget) : GadgetCall → Option Path
  | createFunction type inst _ => some (functionDir g type inst)
  | createConfig id label _ _ => some (configDir g id label)
  | _ => none

/-- Every name that the call gives is one step down in a path. -/
def Named : GadgetCall → Prop
  | createFunction _ inst attrs => '/' ∉ inst ∧ ∀ a ∈ attrs, a.Named
  | createConfig _ label _ _ => ∀ l ∈ label, '/' ∉ l
  | addConfigFunction _ name _ => ∀ n ∈ name, StepDown n
  | importFunction _ inst => '/' ∉ inst
  | importConfig file _ => ∀ root, file = .parsed root → ConfigNamed root
  | function _ c => c.Named
  | _ => True

/-- The new directory is in the directory of the gadget. -/
lemma length_newDir {p : Path} {c : GadgetCall} (h : p ∈ c.newDir g) : p.length = g.dir.length + 2 := by
  cases c with
  | createFunction | createConfig =>
    obtain rfl := Option.some.inj h
    simp [functionDir, configDir]
  | _ => cases h

/-- What is known of labels holds of those that the caller gives. -/
def Labelled (N : Naming) : GadgetCall → Prop
  | createConfig _ label _ _ => N.label (label.getD defaultConfigLabel)
  | importConfig file _ => ∀ root, file = .parsed root → ConfigLabelled N root
  | _ => True

lemma withConfig_mirror {a : Addr} {m : Config → Io Fs Unit}
    (hm : ∀ c ∈ g.configs, Steps cfg N True True (io (m c)) w g) :
    Steps cfg N True True (withConfig a m) w g := by
  rw [Steps, withConfig, self_bind_apply]
  exact Ends.deref_bind (fun c hc => hm c (find?_key_mem hc)) fun _ => trivial

lemma withFunction_mirror {a : Addr} {m : Func → On Fs Gadget Unit}
    (hm : ∀ f ∈ g.functions, Steps cfg N True True (m f) w g) :
    Steps cfg N True True (withFunction a m) w g := by
  rw [Steps, withFunction, self_bind_apply]
  exact Ends.deref_bind (fun f hf => hm f (find?_key_mem hf)) fun _ => trivial

/-- A call that never leaves anything behind. -/
lemma of_steps {α : Type} {m : On Fs Gadget α} {same : Prop} {left : World Fs × Gadget → Prop}
    (h : Steps cfg N True same m w g) :
    Ends (fun _ => MirrorStep cfg N True False w g) (fun _ t => MirrorStep cfg N (left t) False w g t) True
      (m (w, g)) :=
  h.mono (fun _ _ ht => ht.weaken (fun h => h) False.elim) fun _ _ ht => ht.weaken (fun _ => trivial) False.elim

/-- A call on a gadget keeps the mirror.  It leaves nothing behind but, if it fails, its new directory. -/
lemma run_mirror (hM : Configfs M cfg) (hN : N.Renders cfg) (h : GadgetMirrored cfg N w g) (c : GadgetCall)
    (hc : c.Labelled N) :
    Ends (fun _ => MirrorStep cfg N True False w g)
      (fun _ t => MirrorStep cfg N (∀ p ∈ c.newDir g, t.1.tree.made p = w.tree.made p) False w g t) True
      (c.run M (w, g)) := by
  cases c with
  | createFunction type inst attrs =>
    refine Ends.bind ((usbgCreateFunction_mirror hM h).mono (fun _ _ ht => ht.any) fun _ _ ht =>
      ht.weaken (fun hp => .inr (hp _ rfl)) False.elim) fun _ _ ht => ht
  | createConfig id label attrs strs =>
    refine Ends.bind ((usbgCreateConfig_mirror hM h hc).mono (fun _ _ ht => ht.any) fun _ _ ht =>
      ht.weaken (fun hp => .inr (hp _ rfl)) False.elim) fun _ _ ht => ht
  | addConfigFunction c name f =>
    exact of_steps (withFunction_mirror fun f hf => ConfigStep.onConfig fun c hc _ =>
      usbgAddConfigFunction_mirror hM h hc hf hN)
  | rmBinding c b => exact of_steps (ConfigStep.onConfig fun c hc _ => usbgRmBinding_mirror hM h hc b)
  | rmConfig c opts => exact of_steps (usbgRmConfig_mirror hM h c opts)
  | rmFunction f opts => exact of_steps (usbgRmFunction_mirror hM h f opts)
  | setOsDescConfig c =>
    exact (usbgSetOsDescConfig_mirror hM hN h c).mono (fun _ _ ht => ht) fun _ _ ht => ht.any
  | importFunction file inst =>
    have hsteps : Steps cfg N True True (usbgImportFunction M.kernel (functionOps M.kernel) file inst) w g :=
      importFile_mirror h fun root _ => usbgImportFunctionRun_mirror hM h root inst
    exact of_steps (Ends.bind hsteps fun _ _ ht => ht)
  | importConfig file id =>
    have hsteps : Steps cfg N True True (usbgImportConfig M.kernel (functionOps M.kernel) file id) w g :=
      Ends.require_bind (fun _ => importFile_mirror h fun root hroot =>
        usbgImportConfigRun_mirror hM hN h (hc root hroot) id) fun _ => .refl h
    exact of_steps (Ends.bind hsteps fun _ _ ht => ht)
  | set s =>
    have hsteps : Steps cfg N True True (GadgetCall.run M (.set s)) w g := s.run_mirror hM h
    exact of_steps hsteps
  | setConfig c s => exact of_steps (withConfig_mirror fun c hc => s.run_mirror hM h hc)
  | function f c => exact of_steps (c.run_mirror hM h f)

end GadgetCall

/-! ## Calls of the library -/

/-- The public calls that change the tree, the lists, or what an object remembers; those on a gadget that are made
for several of its functions, as an export, are the calls on each. -/
inductive LibCall where
  | createGadget (name : CStr) (attrs : Option GadgetAttrs) (strs : Option GadgetStrs)
  | createGadgetVidPid (name : CStr) (idVendor idProduct : UInt16)
  | rmGadget (g : Addr) (opts : RmOpts)
  | enableGadget (g : Addr) (udc : Option Addr)
  | disableGadget (g : Addr)
  | getGadgetUdc (g : Addr)
  | getUdcGadget (u : Addr)
  | importGadget (file : ConfigFile) (name : CStr)
  | gadget (g : Addr) (c : GadgetCall)

namespace LibCall

/-- The call, without the value it returns. -/
def run (M : Machine) : LibCall → On Fs State Unit
  | createGadget name attrs strs => do
    let _ ← usbgCreateGadget M.kernel name attrs strs
    pure ()
  | createGadgetVidPid name idVendor idProduct => do
    let _ ← usbgCreateGadgetVidPid M.kernel name idVendor idProduct
    pure ()
  | rmGadget g opts => usbgRmGadget M.kernel (functionOps M.kernel) g opts
  | enableGadget g udc => usbgEnableGadget M.kernel g udc
  | disableGadget g => usbgDisableGadget M.kernel g
  | getGadgetUdc g => do
    let _ ← usbgGetGadgetUdc M.kernel g
    pure ()
  | getUdcGadget u => do
    let _ ← usbgGetUdcGadget M.kernel u
    pure ()
  | importGadget file name => do
    let _ ← usbgImportGadget M.kernel (functionOps M.kernel) file name
    pure ()
  | gadget g c => onGadget g (c.run M)

/-- The directory that the call is to make. -/
def newDir (s : State) : LibCall → Option Path
  | createGadget name _ _ | createGadgetVidPid name _ _ | importGadget _ name => some (s.path ++ [name])
  | gadget g c => (s.gadget? g).bind fun g => c.newDir g
  | _ => none

/-- Every name that the call gives is one step down in a path: no name has a slash, and none is that of the directory
itself or of the one above. -/
def Named : LibCall → Prop
  | createGadget name _ _ | createGadgetVidPid name _ _ => StepDown name
  | importGadget file name => StepDown name ∧ ∀ root, file = .parsed root → GadgetNamed root
  | gadget _ c => c.Named
  | _ => True

/-- What is known of labels holds of those that the caller gives. -/
def Labelled (N : Naming) : LibCall → Prop
  | importGadget file _ => ∀ root, file = .parsed root → GadgetLabelled N root
  | gadget _ c => c.Labelled N
  | _ => True

/-- If the call fails, its directory is not there, unless it was there before or a gadget of the list has it, as that of
an import which could not be undone. -/
def Neat (M : Machine) (c : LibCall) (t : World Fs × State) : Prop :=
  ∀ p ∈ c.newDir t.2, ∀ e t', c.run M t = (.fail e, t') → LeftListed t t' p

/-- What `usbg_create_gadget` does in the new directory. -/
lemma keeps_beside_gadgetSetUp {gad : Gadget} {attrs : Option GadgetAttrs} {strs : Option GadgetStrs}
    (hM : Configfs M cfg)
    (hclean : Path.Clean [cfg, gadgetsDir, name]) (hp : gad.path = [cfg, gadgetsDir]) (hn : gad.name = name) :
    Keeps (Beside cfg [cfg, gadgetsDir, name] w) (do
      whenSome (usbgSetGadgetAttrs M.kernel gad) attrs
      whenSome (usbgSetGadgetStrs M.kernel gad langUsEng) strs) := by
  have hdir : gad.dir = [cfg, gadgetsDir, name] := by
    rw [Gadget.dir, hp, hn]
    rfl
  rw [← hdir] at hclean ⊢
  exact .bind (.whenSome fun _ _ => keeps_beside_usbgSetGadgetAttrs hM hclean) fun _ =>
    .whenSome fun _ _ => keeps_beside_usbgSetGadgetStrs hM hclean (by rw [hdir]; rfl)

/-- Both constructors of gadgets. -/
lemma createGadget_mirror {setUp : Gadget → Io Fs Unit} (hM : Configfs M cfg) (h : StateInv cfg N tidy t)
    (hset : ∀ gad w, Path.Clean [cfg, gadgetsDir, name] → gad.path = [cfg, gadgetsDir] → gad.name = name →
      Keeps (Beside cfg [cfg, gadgetsDir, name] w) (setUp gad)) :
    Ends (fun _ => StateInv cfg N tidy)
      (fun _ t' => StateInv cfg N (LeftListed t t' [cfg, gadgetsDir, name] ∧ tidy) t')
      True (createGadgetWith M.kernel name setUp t) := by
  refine (createGadgetWith_mirror hM h.1 hset).mono ?_ fun _ _ ht =>
    ⟨h.1.noGadget ht, fun hp => h.1.tidy_noGadget ht hp.1 (h.2 hp.2)⟩
  rintro _ ⟨w₁, s₁⟩ ⟨gad, s', -, hnew, rfl⟩
  exact ⟨hnew.insert h.1, fun hp => hnew.insert_tidy h.1 (h.2 hp)⟩

/-- A call keeps the mirror.  It leaves nothing behind but, if it fails, its new directory. -/
lemma run_mirror (hM : Configfs M cfg) (hN : N.Renders cfg) (h : StateInv cfg N tidy t) (c : LibCall)
    (hc : c.Labelled N) :
    Ends (fun _ => StateInv cfg N tidy)
      (fun _ t' => StateInv cfg N ((∀ p ∈ c.newDir t.2, LeftListed t t' p) ∧ tidy) t') True (c.run M t) := by
  have hpath : ∀ name, t.2.path ++ [name] = [cfg, gadgetsDir, name] := fun name => by
    rw [h.1.path]
    rfl
  have hkept : ∀ {α : Type} {m : On Fs State α} {left : World Fs × State → Prop}, Upholds (StateInv cfg N tidy) m →
      Ends (fun _ => StateInv cfg N tidy) (fun _ t' => StateInv cfg N (left t' ∧ tidy) t') True (m t) := fun hm =>
    (hm t h).mono (fun _ _ ht => ht) fun _ _ ht => ⟨ht.1, fun hp => ht.2 hp.2⟩
  cases c with
  | createGadget name attrs strs =>
    refine Ends.bind ((createGadget_mirror hM h fun gad w hclean hp hn => ?_).mono (fun _ _ ht => ht) fun _ _ ht =>
      ⟨ht.1, fun hs => ht.2 ⟨hpath name ▸ hs.1 _ rfl, hs.2⟩⟩) fun _ _ ht => ht
    exact keeps_beside_gadgetSetUp hM hclean hp hn
  | createGadgetVidPid name idVendor idProduct =>
    refine Ends.bind ((createGadget_mirror hM h fun gad w hclean hp hn => ?_).mono (fun _ _ ht => ht) fun _ _ ht =>
      ⟨ht.1, fun hs => ht.2 ⟨hpath name ▸ hs.1 _ rfl, hs.2⟩⟩) fun _ _ ht => ht
    have hwrite : ∀ file buf, Keeps (Beside cfg [cfg, gadgetsDir, name] w)
      (usbgWriteBuf M.kernel gad.path name file buf) :=
      fun file buf => keeps_beside_usbgWriteBuf hM hclean (by simp [hp])
    exact .bind (hwrite _ _) fun _ => hwrite _ _
  | rmGadget g opts => exact hkept (usbgRmGadget_mirror hM g opts)
  | enableGadget g udc => exact hkept (usbgEnableGadget_mirror hM g udc)
  | disableGadget g => exact hkept (usbgDisableGadget_mirror hM g)
  | getGadgetUdc g => exact hkept (.bind (usbgGetGadgetUdc_mirror g) fun _ => .pure _)
  | getUdcGadget u => exact hkept (.bind (usbgGetUdcGadget_mirror u) fun _ => .pure _)
  | importGadget file name =>
    exact Ends.bind ((usbgImportGadget_mirror hM hN h hc).mono (fun _ _ ht => ht) fun _ _ ht =>
      ⟨ht.1, fun hs => ht.2 ⟨hpath name ▸ hs.1 _ rfl, hs.2⟩⟩) fun _ _ ht => ht
  | gadget a c =>
    refine (onGadget_mirror (fun w' => ∀ g ∈ t.2.gadgets, g.addr = a → ∀ p ∈ c.newDir g,
      w'.tree.made p = t.1.tree.made p) h fun g hg ha hm => ?_).mono (fun _ _ ht => ht) fun _ t' ht => ?_
    · exact (c.run_mirror hM hN hm hc).mono (fun _ _ ht => ht) fun _ _ ht => ht.weaken (fun hp => hp g hg ha) fun h => h
    · refine ⟨ht.1, fun hs => ht.2 ⟨fun g hg ha p hp => (hs.1 p ?_).resolve_right ?_, hs.2⟩⟩
      · have hfind : t.2.gadget? a = some g := (find?_key_eq_some h.1.addrs).mpr ⟨hg, ha⟩
        rw [newDir, hfind]
        exact hp
      · -- the new directory is inside that of a gadget
        rintro ⟨g', hg', rfl⟩
        have hlen := GadgetCall.length_newDir hp
        rw [(ht.1.gadgets g' hg').length_dir, (h.1.gadgets g hg).length_dir] at hlen
        cases hlen

/-- A call that leaves nothing behind. -/
lemma run_tidy (hM : Configfs M cfg) (hN : N.Renders cfg) (h : StateInv cfg N tidy t) (c : LibCall)
    (hc : c.Labelled N) (hneat : c.Neat M t) :
    Ends (fun _ => StateInv cfg N tidy) (fun _ => StateInv cfg N tidy) True (c.run M t) := by
  refine Ends.intro (fun a t' hr => ?_) (fun e t' hr => ?_) fun _ _ => trivial
  · have hends := run_mirror hM hN h c hc
    rw [hr] at hends
    exact hends
  · have hends := run_mirror hM hN h c hc
    rw [hr] at hends
    exact ⟨hends.1, fun ht => hends.2 ⟨fun p hp => hneat p hp e t' hr, ht⟩⟩

end LibCall

lemma LibCall.labelled_any (c : LibCall) : c.Labelled .any := by
  cases c with
  | importGadget file name => exact fun _ _ _ _ _ _ _ _ => trivial
  | gadget a c =>
    cases c with
    | importConfig file id => exact fun _ _ _ _ => trivial
    | _ => trivial
  | _ => trivial

/-- What holds after every run; if `tidy` then no call of the run has left something behind. -/
lemma stateInv_of_calls {w₀ : World Fs} {s : State} (tidy : Prop) (hM : Configfs M cfg) (hN : N.Renders cfg)
    (htree : TreeNamed cfg N w₀.tree) (hinit : usbgInit M.kernel cfg w₀ = (.ok s, w))
    (hrun : Calls (LibCall.run M) (fun c t => c.Labelled N ∧ (tidy → c.Neat M t)) (w, s) t) :
    StateInv cfg N tidy t := by
  refine hrun.invariant (StateInv cfg N tidy) (fun c t hc h => ?_) ⟨(usbgInit_mirrored htree hinit).1,
    fun _ => (usbgInit_mirrored htree hinit).2⟩
  by_cases hp : tidy
  · exact c.run_tidy hM hN h hc.1 (hc.2 hp)
  · exact (c.run_mirror hM hN h hc.1).mono (fun _ _ ht => ht) fun _ _ ht => ⟨ht.1, fun ht => absurd ht hp⟩

/-- In every run of the library, whatever calls are made in whatever order, whatever they are given and whatever the
kernel refuses, the lists of every gadget mirror its directory.  The names that the calls give are single steps down in
a path. -/
theorem stateMirrored_of_calls (M : Machine) (cfg : CStr) (w₀ w : World Fs) (s : State) (t : World Fs × State)
    (hM : Configfs M cfg) (htree : TreeNamed cfg .any w₀.tree) (hinit : usbgInit M.kernel cfg w₀ = (.ok s, w))
    (hrun : Calls (LibCall.run M) (fun c _ => c.Named) (w, s) t) : StateMirrored cfg .any t :=
  (stateInv_of_calls False hM Naming.any_renders htree hinit
    (Calls.mono hrun fun c _ _ => ⟨c.labelled_any, False.elim⟩)).1

/-- If no call that fails has left its directory behind without a gadget for it, then every directory of a gadget, a
function or a configuration is in the lists. -/
theorem stateTidy_of_neat (M : Machine) (cfg : CStr) (w₀ w : World Fs) (s : State) (t : World Fs × State)
    (hM : Configfs M cfg) (htree : TreeNamed cfg .any w₀.tree) (hinit : usbgInit M.kernel cfg w₀ = (.ok s, w))
    (hrun : Calls (LibCall.run M) (fun c t => c.Named ∧ c.Neat M t) (w, s) t) : StateTidy cfg t :=
  (stateInv_of_calls True hM Naming.any_renders htree hinit
    (Calls.mono hrun fun c _ hc => ⟨c.labelled_any, fun _ => hc.2⟩)).2 trivial

/-! ### A run -/

lemma treeNamed_emptyGadgetTree (N : Naming) : TreeNamed "/c".toList N emptyGadgetTree := by
  have hmade : ∀ e ∈ emptyGadgetTree.entries, e.2.made = true → e.1.length = 3 := by decide +kernel
  have hno : ∀ p : Path, p.length ≠ 3 → emptyGadgetTree.made p = none := fun p hp =>
    FileTree.made_eq_none.mpr fun n hn => by
      by_contra hm
      exact hp (hmade _ (FileTree.get_eq_some.mp hn) (by simpa using hm))
  have hlinks : ∀ e ∈ emptyGadgetTree.entries, e.2.isLink = false := by decide +kernel
  have hnolink : ∀ p text t, emptyGadgetTree.get p ≠ some (.link text t) := fun p text t hn => by
    cases hlinks _ (FileTree.get_eq_some.mp hn)
  exact
    { shaped := importing_emptyGadget.shaped
      dir := by decide +kernel
      configs := fun x c hn => absurd (hno _ (by simp)) hn
      links := fun x k r text t _ hn => absurd hn (hnolink _ text t)
      alive := fun x y text t hn => absurd hn (hnolink _ text t)
      one := fun x y z hn => absurd (hno _ (by simp)) hn }

/-- The function that the kernel of the run does not remove. -/
def heldDir : Path := ["/c".toList, gadgetsDir, "h".toList, functionsDir, "mass_storage.0".toList]

/-- The kernel of the run. -/
def plainMachine : Machine :=
  { configfsMachine "/c".toList with
    fault := fun n c =>
      match c with
      | .rmdir p => if p.resolve = heldDir then some .ebusy else (configfsMachine "/c".toList).fault n (.rmdir p)
      | c => (configfsMachine "/c".toList).fault n c }

/-- A kernel that refuses more. -/
lemma Configfs.of_stricter {M' : Machine} (h : Configfs M cfg) (hgroups : M'.groups = M.groups)
    (hfault : ∀ n c, M'.fault n c = none → M.fault n c = none) : Configfs M' cfg := by
  have hnew : ∀ p, M'.newDir p = M.newDir p := fun p => by rw [newDir, newDir, hgroups]
  refine ⟨fun n p hp => ?_, fun n t p hp => h.links n t p (hfault n _ hp), fun p => ?_, ?_, ?_⟩
  · rw [hnew]
    exact h.mkdirs n p (hfault n _ hp)
  · rw [hnew]
    exact h.nodup p
  · rw [hgroups]
    exact h.parents
  · rw [hgroups]
    exact h.names

lemma configfs_plainMachine : Configfs plainMachine "/c".toList := by
  refine (configfs_configfsMachine "/c".toList).of_stricter rfl fun n c hc => ?_
  cases c with
  | rmdir p => rfl
  | _ => exact hc

/-- What `usbg_init` makes of a tree. -/
def opened (M : Machine) (cfg : CStr) (T : Tree) : World Fs × State :=
  match usbgInit M.kernel cfg (worldOf T) with
  | (.ok s, w) => (w, s)
  | (_, w) => (w, { path := [], configfsPath := [], gadgets := [], udcs := [], lastFailedImport := none })

lemma usbgInit_opened {T : Tree} (h : (opened M cfg T).2.path ≠ []) :
    ∃ s w, opened M cfg T = (w, s) ∧ usbgInit M.kernel cfg (worldOf T) = (.ok s, w) := by
  revert h
  rw [opened]
  rcases usbgInit M.kernel cfg (worldOf T) with ⟨_ | _ | _, w⟩ <;> simp

/-- The tree with an empty gadget is opened. -/
def plainStart : World Fs × State := opened plainMachine "/c".toList emptyGadgetTree

/-- The scheme of a gadget with a function; its configurations are not in a list. -/
def brokenGadgetScheme (type : FunctionType) : Setting :=
  .group [("functions".toList, .group [("f".toList,
      .group [("type".toList, .string type.name), ("instance".toList, .string "0".toList)])]),
    ("configs".toList, .group [])]

lemma named_brokenGadgetScheme (type : FunctionType) : GadgetNamed (brokenGadgetScheme type) := by
  refine ⟨fun functions hf node hn => ?_, fun configs hc node hn => ?_⟩
  · obtain rfl := Option.some.inj hf
    obtain rfl := List.mem_singleton.mp hn
    intro inst hi
    obtain rfl := Option.some.inj hi
    decide
  · obtain rfl := Option.some.inj hc
    exact (List.not_mem_nil hn).elim

/-- A function and a configuration are made and bound, and they are not removed as long as they are; the import of a
gadget fails, and can not be undone; its function is given another unit. -/
def boundCalls : List LibCall :=
  [.gadget 0 (.createFunction .acm "0".toList none), .gadget 0 (.createConfig 1 none none none),
    .gadget 0 (.addConfigFunction 2 none 1), .gadget 0 (.setOsDescConfig (some 2)), .gadget 0 (.rmConfig 2 false),
    .gadget 0 (.rmFunction 1 false), .importGadget (.parsed (brokenGadgetScheme .massStorage)) "h".toList,
    .gadget 3 (.function 4 (.msCreateLun 1 none)), .gadget 3 (.set (.vendorId 0x1d6b))]

/-- Every call of the list has a meaning, and when its turn comes `ok` holds of it. -/
def RunsAll (M : Machine) (ok : LibCall → World Fs × State → Prop) : World Fs × State → List LibCall → Prop
  | _, [] => True
  | t, c :: cs => ((c.run M t).1 ≠ .undef ∧ ok c t) ∧ RunsAll M ok (c.run M t).2 cs

instance RunsAll.decidable (M : Machine) (ok : LibCall → World Fs × State → Prop) [∀ c t, Decidable (ok c t)] :
    (t : World Fs × State) → (cs : List LibCall) → Decidable (RunsAll M ok t cs)
  | _, [] => isTrue trivial
  | t, c :: cs =>
    have : Decidable (RunsAll M ok (c.run M t).2 cs) := RunsAll.decidable M ok _ cs
    inferInstanceAs (Decidable (_ ∧ _))

/-- The state after the calls. -/
def afterCalls (M : Machine) (t : World Fs × State) (cs : List LibCall) : World Fs × State :=
  cs.foldl (fun t c => (c.run M t).2) t

lemma calls_of_runsAll {P : LibCall → World Fs × State → Prop} {cs : List LibCall} (h : RunsAll M P t cs) :
    Calls (LibCall.run M) (fun c t => c ∈ cs ∧ P c t) t (afterCalls M t cs) := by
  induction cs generalizing t with
  | nil => exact .refl t
  | cons c cs ih =>
    obtain ⟨⟨hdef, hc⟩, hcs⟩ := h
    exact Relation.ReflTransGen.head ⟨c, (c.run M t).1, ⟨List.mem_cons_self, hc⟩, hdef, rfl⟩
      (Calls.mono (ih hcs) fun _ _ hc' => ⟨List.mem_cons_of_mem _ hc'.1, hc'.2⟩)

/-- The call succeeds, or leaves nothing behind. -/
def LibCall.EndsNeatly (M : Machine) (c : LibCall) (t : World Fs × State) : Prop :=
  (c.run M t).1 = .ok () ∨ ∀ p ∈ c.newDir t.2, LeftListed t (c.run M t).2 p

instance (M : Machine) (c : LibCall) (t : World Fs × State) : Decidable (c.EndsNeatly M t) :=
  inferInstanceAs (Decidable (_ ∨ _))

lemma LibCall.EndsNeatly.neat {c : LibCall} (h : c.EndsNeatly M t) : c.Neat M t := by
  intro p hp e t' hr
  rw [LibCall.EndsNeatly, hr] at h
  rcases h with hok | hleft
  · cases hok
  · exact hleft p hp

lemma runsAll_boundCalls : RunsAll plainMachine (LibCall.EndsNeatly plainMachine) plainStart boundCalls := by
  decide +kernel

lemma named_boundCalls : ∀ c ∈ boundCalls, c.Named := by
  have hnone : ∀ {α : Type} {P : α → Prop}, ∀ a ∈ (none : Option α), P a := fun _ h => (Option.not_mem_none _ h).elim
  simp only [boundCalls, List.mem_cons, List.not_mem_nil, or_false]
  rintro c (rfl | rfl | rfl | rfl | rfl | rfl | rfl | rfl | rfl)
  · exact ⟨by decide, hnone⟩
  · exact hnone
  · exact hnone
  · trivial
  · trivial
  · trivial
  · refine ⟨⟨by decide, by decide, by decide⟩, fun _ hroot => ?_⟩
    exact ConfigFile.parsed.inj hroot ▸ named_brokenGadgetScheme .massStorage
  · trivial
  · trivial

/-- The run of these calls. -/
lemma calls_boundCalls : Calls (LibCall.run plainMachine) (fun c t => c ∈ boundCalls ∧ c.Named ∧ c.Neat plainMachine t)
    plainStart (afterCalls plainMachine plainStart boundCalls) :=
  Calls.mono (calls_of_runsAll runsAll_boundCalls) fun c _ hc => ⟨hc.1, named_boundCalls c hc.1, hc.2.neat⟩

lemma usbgInit_plainStart : ∃ s w, plainStart = (w, s) ∧
    usbgInit plainMachine.kernel "/c".toList (worldOf emptyGadgetTree) = (.ok s, w) :=
  usbgInit_opened (by decide +kernel)

/-- The lists mirror the tree when the kernel has refused the removals. -/
theorem stateMirrored_boundCalls : StateMirrored "/c".toList .any (afterCalls plainMachine plainStart boundCalls) := by
  obtain ⟨s, w, hs, hinit⟩ := usbgInit_plainStart
  exact stateMirrored_of_calls plainMachine "/c".toList (worldOf emptyGadgetTree) w s _ configfs_plainMachine
    (treeNamed_emptyGadgetTree _) hinit (hs ▸ Calls.mono calls_boundCalls fun _ _ hc => hc.2.1)

/-- And nothing is left behind. -/
theorem stateTidy_boundCalls : StateTidy "/c".toList (afterCalls plainMachine plainStart boundCalls) := by
  obtain ⟨s, w, hs, hinit⟩ := usbgInit_plainStart
  exact stateTidy_of_neat plainMachine "/c".toList (worldOf emptyGadgetTree) w s _ configfs_plainMachine
    (treeNamed_emptyGadgetTree _) hinit (hs ▸ Calls.mono calls_boundCalls fun _ _ hc => hc.2)

end Libusbgx
