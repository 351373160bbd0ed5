import Libusbgx.Mirror.Runs

/-!
# What no call can break

A property of the world that every system call keeps, whatever path it is about, is kept by every call of the
library, and so it holds in every run.
-/

namespace Libusbgx

open Prog Machine

variable {τ α : Type} {K : Kernel Fs} {I : World Fs → Prop}

/-- The property holds of the world, whatever the object at hand is. -/
abbrev OnAny (I : World Fs → Prop) : World Fs × τ → Prop := With I fun _ => True

/-! ## Parts of an object -/

lemma keeps_any_onConfig {a : Addr} {m : On Fs Config α} (hm : Keeps (OnAny I) m) : Keeps (OnAny I) (onConfig a m) :=
  keeps_part (fun g : Gadget => g.config? a) (fun c g => g.setConfig c) (fun _ _ => True) (fun _ => hm)
    (fun _ => trivial) fun _ _ _ _ _ _ => trivial

lemma keeps_any_onFunction {a : Addr} {m : On Fs Func α} (hm : Keeps (OnAny I) m) : Keeps (OnAny I) (onFunction a m) :=
  keeps_part (fun g : Gadget => g.function? a) (fun f g => g.setFunction f) (fun _ _ => True) (fun _ => hm)
    (fun _ => trivial) fun _ _ _ _ _ _ => trivial

lemma keeps_any_onGadget {a : Addr} {m : On Fs Gadget α} (hm : Keeps (OnAny I) m) : Keeps (OnAny I) (onGadget a m) :=
  keeps_part (fun s : State => s.gadget? a) (fun g s => s.setGadget g) (fun _ _ => True) (fun _ => hm)
    (fun _ => trivial) fun _ _ _ _ _ _ => trivial

lemma keeps_any_update {f : τ → τ} : Keeps (OnAny I) (update f : On Fs τ Unit) := keeps_update fun _ _ => trivial

/-- What an operation keeps for every core of a function. -/
lemma keeps_any_of_core {m : On Fs Func α} (hm : ∀ c, Keeps (OnCore I c) m) : Keeps (OnAny I) m :=
  fun s hs => ⟨(hm s.2.core s ⟨hs.1, rfl⟩).1, trivial⟩

lemma configsBelow_any : ConfigsBelow [] fun _ => True where
  config _ _ _ _ := ⟨List.nil_prefix, fun _ _ => List.nil_prefix⟩
  put _ _ _ _ _ _ _ _ := trivial

lemma functionsBelow_any : FunctionsBelow [] fun _ => True where
  function _ _ _ _ := List.nil_prefix
  put _ _ _ _ _ _ _ := trivial

namespace StableUp

variable (h : StableUp K [] I)

include h

/-! ## Constructors -/

lemma keeps_any_addConfigFunction {name : Option CStr} {f : Func} :
    Keeps (OnAny I) (usbgAddConfigFunction K name f) :=
  .bind keeps_self fun _ => .bind (.require _) fun _ => .bind (.require _) fun _ => .bind (.require _) fun _ =>
    .bind (.require _) fun _ => .bind (keeps_io (.pure _)) fun _ =>
    .bind (.require _) fun _ => .bind (keeps_io (h.keeps_call List.nil_prefix)) fun _ => keeps_any_update

lemma keeps_any_createFunction {type : FunctionType} {inst : CStr} {attrs : Option FunctionAttrs} :
    Keeps (OnAny I) (usbgCreateFunction K (functionOps K) type inst attrs) := by
  refine .bind (.require _) fun _ => .bind keeps_self fun g => .bind (.require _) fun _ => .bind (.require _) fun _ =>
    .bind (keeps_io h.keeps_usbgAllocateFunction) fun func => .bind (.require _) fun _ =>
    .bind (keeps_io (h.keeps_call List.nil_prefix)) fun _ => .bind ?_ fun _ => .bind keeps_any_update fun _ => .pure _
  cases attrs with
  | none => exact .pure _
  | some attrs =>
    refine .bind (keeps_io (.onFail (keeps_withNew (P := fun f => f.core = func.core) ?_ rfl)
      (h.keeps_usbgRmDir List.nil_prefix))) fun _ => .pure _
    exact keeps_self_bind fun f _ => .deref_bind fun r hr =>
      (functionOps_stable K).setAttrs h.toStableUpIn func.core List.nil_prefix _ r attrs hr

lemma keeps_any_createConfig {id : ℤ} {label : Option CStr} {attrs : Option ConfigAttrs} {strs : Option ConfigStrs} :
    Keeps (OnAny I) (usbgCreateConfig K id label attrs strs) :=
  .bind (.require _) fun _ => .bind keeps_self fun _ => .bind (.require _) fun _ => .bind (.require _) fun _ =>
    .bind (keeps_io h.keeps_usbgAllocateConfig) fun _ => .bind (.require _) fun _ =>
    .bind (keeps_io (h.keeps_call List.nil_prefix)) fun _ =>
    .bind (keeps_io (.onFail (.bind (.whenSome fun _ _ => h.keeps_usbgSetConfigAttrs List.nil_prefix) fun _ =>
      .whenSome fun _ _ => h.keeps_usbgSetConfigString List.nil_prefix) (h.keeps_tryCall List.nil_prefix))) fun _ =>
    .bind keeps_any_update fun _ => .pure _

lemma keeps_any_createGadgetWith {name : CStr} {setUp : Gadget → Io Fs Unit} (hset : ∀ gad, Keeps I (setUp gad)) :
    Keeps (OnAny I) (createGadgetWith K name setUp) := by
  refine .bind keeps_self fun s => .bind (.require _) fun _ => .bind ?_ fun gad =>
    .bind (keeps_io (.onFail (hset gad) (h.keeps_usbgRmDir List.nil_prefix))) fun _ =>
    .bind keeps_any_update fun _ => .pure _
  refine .bind keeps_self fun s => .bind (.require _) fun _ => .bind (keeps_io h.keeps_usbgAllocateGadget) fun gad =>
    .bind (keeps_io (h.keeps_call List.nil_prefix)) fun _ =>
    .bind (keeps_io (.onFail (h.keeps_usbgReadString List.nil_prefix) (h.keeps_tryCall List.nil_prefix))) fun buf => ?_
  cases (usbgGetUdc s buf).map Udc.addr with
  | none => exact .pure _
  | some u => exact .bind keeps_any_update fun _ => .pure _

/-! ## The OS descriptor link -/

lemma keeps_any_setOsDescConfig {c : Option Addr} : Keeps (OnAny I) (usbgSetOsDescConfig K c) := by
  cases c with
  | none => exact h.keeps_usbgRmOsDescLink fun _ _ => List.nil_prefix
  | some c =>
    exact .bind keeps_self fun _ => .bind (.require _) fun _ => .bind keeps_self fun _ => .bind (.deref _) fun _ =>
      .bind (.require _) fun _ => .bind (.require _) fun _ => .bind (keeps_io (h.keeps_call List.nil_prefix)) fun _ =>
      keeps_any_update

/-! ## Removal -/

lemma keeps_any_rmConfig {c : Addr} {opts : RmOpts} : Keeps (OnAny I) (usbgRmConfig K c opts) :=
  h.keeps_usbgRmConfig configsBelow_any (fun _ _ _ => trivial) fun _ _ => List.nil_prefix

lemma keeps_any_rmFunction {f : Addr} {opts : RmOpts} : Keeps (OnAny I) (usbgRmFunction K (functionOps K) f opts) :=
  h.keeps_usbgRmFunction (functionOps_stable K) configsBelow_any functionsBelow_any fun _ _ _ => trivial

lemma keeps_any_rmGadget {g : Addr} {opts : RmOpts} : Keeps (OnAny I) (usbgRmGadget K (functionOps K) g opts) :=
  .bind (.when fun _ => keeps_any_onGadget (.bind keeps_self fun _ => .bind (.forEach fun _ _ => h.keeps_any_rmConfig)
      fun _ => .bind keeps_self fun _ => .bind (.forEach fun _ _ => h.keeps_any_rmFunction) fun _ =>
      .bind (.require _) fun _ => keeps_io (h.keeps_usbgRmAllDirs List.nil_prefix))) fun _ =>
    .bind (.bind keeps_self fun _ => .deref _) fun _ => .bind (keeps_io (h.keeps_usbgRmDir List.nil_prefix)) fun _ =>
    keeps_any_update

/-! ## Imports -/

lemma keeps_any_importFunctionRun {root : Setting} {inst : CStr} :
    Keeps (OnAny I) (usbgImportFunctionRun K (functionOps K) root inst) := by
  rw [usbgImportFunctionRun]
  cases root.getMember "type".toList with
  | none => exact .fail _
  | some node =>
    dsimp only
    cases node.getString with
    | none => exact .fail _
    | some typeStr =>
      dsimp only
      cases usbgLookupFunctionType typeStr with
      | none => exact .fail _
      | some type =>
        refine .bind h.keeps_any_createFunction fun f => .bind (.whenSome fun attrs _ => ?_) fun _ =>
          .bind (.whenSome fun descs _ => ?_) fun _ => .pure _
        · refine keeps_any_onFunction (keeps_any_of_core fun k => keeps_self_bind fun f _ => ?_)
          cases hops : (functionOps K f.type).imprt with
          | none => exact .fail _
          | some imprt => exact (functionOps_stable K).imprt h.toStableUpIn k List.nil_prefix _ imprt attrs hops
        · refine keeps_any_onFunction (.forEach fun node _ => .bind (.require _) fun _ => ?_)
          cases node.getMember "interface".toList with
          | none => exact .fail _
          | some interfNode =>
            dsimp only
            cases interfNode.getString with
            | none => exact .fail _
            | some interface =>
              exact .bind keeps_self fun _ => .bind (.require _) fun _ => .bind (.ofExcept _) fun _ =>
                keeps_io (h.keeps_usbgSetInterfOsDesc List.nil_prefix)

omit h in
lemma keeps_any_importTarget {node : Setting} : Keeps (OnAny I) (importTarget node : On Fs Gadget Func) := by
  rw [importTarget]
  cases node.getString with
  | none => exact .fail _
  | some label =>
    refine .bind keeps_self fun g => .bind (keeps_io keeps_usbgLookupFunction) fun o => ?_
    cases o with
    | none => exact .fail _
    | some target => exact .pure _

lemma keeps_any_importConfigBindings {root : Setting} {c : Addr} :
    Keeps (OnAny I) (usbgImportConfigBindings K (functionOps K) root c) := by
  refine .forEach fun node _ => .ite (fun _ => .bind keeps_any_importTarget fun _ =>
    keeps_any_onConfig h.keeps_any_addConfigFunction) fun _ => .ite (fun _ => ?_) fun _ => .fail _
  rw [usbgImportBindingGroup]
  cases node.getMember "function".toList with
  | none => exact .fail _
  | some node' =>
    refine .bind (.ite (fun _ => keeps_any_importTarget) fun _ => .ite (fun _ => ?_) fun _ => .fail _) fun _ =>
      .bind (.ofExcept _) fun _ => keeps_any_onConfig h.keeps_any_addConfigFunction
    cases node'.getMember "instance".toList with
    | none => exact .fail _
    | some instNode =>
      dsimp only
      cases instNode.getString with
      | none => exact .fail _
      | some inst => exact .bind h.keeps_any_importFunctionRun fun _ => .bind keeps_self fun _ => .deref _

lemma keeps_any_importConfigRun {root : Setting} {id : ℤ} :
    Keeps (OnAny I) (usbgImportConfigRun K (functionOps K) root id) := by
  have hattr : ∀ (node : Setting) (name : CStr) (set : ℤ → Io Fs Unit), (∀ v, Keeps I (set v)) →
      Keeps I (importConfigAttr node name set) := by
    intro node name set hset
    rw [importConfigAttr]
    cases node.getMember name with
    | none => exact .pure _
    | some m => exact .ite (fun _ => .fail _) fun _ => hset _
  rw [usbgImportConfigRun]
  cases root.getMember "name".toList with
  | none => exact .fail _
  | some node =>
    dsimp only
    cases node.getString with
    | none => exact .fail _
    | some name =>
      refine .bind h.keeps_any_createConfig fun c => .bind (.onFail
        (.bind keeps_self fun _ => .bind (.deref _) fun conf =>
        .bind (.whenSome fun attrs _ => .bind (.require _) fun _ => keeps_io ?_) fun _ =>
        .bind (.whenSome fun strs _ => .bind (.require _) fun _ => keeps_io (.forEach fun node _ => ?_)) fun _ =>
        .whenSome fun _ _ => .bind (.require _) fun _ => h.keeps_any_importConfigBindings) h.keeps_any_rmConfig)
        fun _ => .pure _
      · exact .bind (hattr _ _ _ fun v => h.keeps_usbgWriteHex8 List.nil_prefix) fun _ =>
          hattr _ _ _ fun v => h.keeps_usbgWriteDec List.nil_prefix
      · exact .bind (.require _) fun _ => .bind (.ofExcept _) fun _ => .bind (.ofExcept _) fun _ =>
          h.keeps_usbgSetConfigString List.nil_prefix

lemma keeps_any_importGadgetContent {root : Setting} :
    Keeps (OnAny I) (importGadgetContent K (functionOps K) root) := by
  have hattr : ∀ (bytes : ℕ) (node : Setting) (name : CStr) (set : ℤ → Io Fs Unit), (∀ v, Keeps I (set v)) →
      Keeps I (importGadgetAttr bytes node name set) := fun bytes node name set hset =>
    .bind (.ofExcept _) fun _ => .whenSome fun _ _ => hset _
  have h16 : ∀ (g : Gadget) name v, Keeps I (usbgWriteHex16 K g.path g.name name v) := fun _ _ _ =>
    h.keeps_usbgWriteHex16 List.nil_prefix
  have h8 : ∀ (g : Gadget) name v, Keeps I (usbgWriteHex8 K g.path g.name name v) := fun _ _ _ =>
    h.keeps_usbgWriteHex8 List.nil_prefix
  refine .bind keeps_self fun g => .bind (.whenSome fun attrs _ => .bind (.require _) fun _ => keeps_io ?_) fun _ =>
    .bind (.whenSome fun strs _ => .bind (.require _) fun _ => keeps_io (.forEach fun node _ => ?_)) fun _ =>
    .bind (.whenSome fun funcs _ => .bind (.require _) fun _ => .forEach fun m _ => .bind (.require _) fun _ => ?_)
      fun _ =>
    .bind (.whenSome fun configs _ => .bind (.require _) fun _ => .forEach fun node _ => .bind (.require _) fun _ => ?_)
      fun _ => .whenSome fun descs _ => .bind (.require _) fun _ => ?_
  · exact .bind (hattr _ _ _ _ fun _ => h16 _ _ _) fun _ => .bind (hattr _ _ _ _ fun _ => h8 _ _ _) fun _ =>
      .bind (hattr _ _ _ _ fun _ => h8 _ _ _) fun _ => .bind (hattr _ _ _ _ fun _ => h8 _ _ _) fun _ =>
      .bind (hattr _ _ _ _ fun _ => h8 _ _ _) fun _ => .bind (hattr _ _ _ _ fun _ => h16 _ _ _) fun _ =>
      .bind (hattr _ _ _ _ fun _ => h16 _ _ _) fun _ => hattr _ _ _ _ fun _ => h16 _ _ _
  · exact .bind (.require _) fun _ => .bind (.ofExcept _) fun _ => .bind (.ofExcept _) fun _ =>
      .bind (.ofExcept _) fun _ => .bind (.ofExcept _) fun _ => h.keeps_usbgSetGadgetStrs List.nil_prefix
  · cases m.2.getMember "instance".toList with
    | none => exact .fail _
    | some instNode =>
      dsimp only
      cases instNode.getString with
      | none => exact .fail _
      | some inst => exact .bind h.keeps_any_importFunctionRun fun _ => keeps_any_onFunction keeps_any_update
  · cases node.getMember "id".toList with
    | none => exact .fail _
    | some idNode => exact .bind (.require _) fun _ => .bind h.keeps_any_importConfigRun fun _ => .pure _
  · refine .bind (.ofExcept _) fun _ => .bind (.ofExcept _) fun _ => .bind (.ofExcept _) fun _ => .bind keeps_self
      fun g => .bind (.attempt (keeps_io (h.keeps_usbgSetGadgetOsDescs List.nil_prefix))) fun ret => ?_
    rw [importOsDescConfig]
    cases descs.getMember "config_id".toList with
    | none => exact .ofExcept _
    | some node =>
      refine .ite (fun _ => .ofExcept _) fun _ => .bind keeps_self fun g => ?_
      cases usbgGetConfig g node.getInt none with
      | none => exact .fail _
      | some target => exact .bind (.attempt h.keeps_any_setOsDescConfig) fun _ => .ofExcept _

omit h in
lemma keeps_any_importFile {file : ConfigFile} {setFailed : Option ConfigFile → τ → τ} {run : Setting → On Fs τ Addr}
    (hrun : ∀ root, Keeps (OnAny I) (run root)) : Keeps (OnAny I) (importFile setFailed run file) := by
  cases file with
  | failed text line => exact .bind keeps_any_update fun _ => .fail _
  | parsed root =>
    refine .bind (.attempt (hrun root)) fun r => ?_
    cases r with
    | error e => exact .bind keeps_any_update fun _ => .fail _
    | ok a => exact .bind keeps_any_update fun _ => .pure _

end StableUp

/-! ## Calls -/

variable {M : Machine}

lemma GadgetCall.keeps (h : StableUp M.kernel [] I) (c : GadgetCall) : Keeps (OnAny I) (c.run M) := by
  cases c with
  | createFunction type inst attrs => exact .bind h.keeps_any_createFunction fun _ => .pure _
  | createConfig id label attrs strs => exact .bind h.keeps_any_createConfig fun _ => .pure _
  | addConfigFunction c name f =>
    exact .bind keeps_self fun _ => .bind (.deref _) fun _ => keeps_any_onConfig h.keeps_any_addConfigFunction
  | rmBinding c b => exact keeps_any_onConfig (h.keeps_usbgRmBinding List.nil_prefix fun _ _ => trivial)
  | rmConfig c opts => exact h.keeps_any_rmConfig
  | rmFunction f opts => exact h.keeps_any_rmFunction
  | setOsDescConfig c => exact h.keeps_any_setOsDescConfig
  | importFunction file inst =>
    exact .bind (StableUp.keeps_any_importFile fun _ => h.keeps_any_importFunctionRun) fun _ => .pure _
  | importConfig file id =>
    exact .bind (.bind (.require _) fun _ => StableUp.keeps_any_importFile fun _ => h.keeps_any_importConfigRun)
      fun _ => .pure _
  | set s => exact .bind keeps_self fun _ => keeps_io (s.keeps h)
  | setConfig c s => exact .bind keeps_self fun _ => .bind (.deref _) fun _ => keeps_io (s.keeps h)
  | function f c => exact keeps_any_onFunction (keeps_any_of_core fun k => c.keeps h.toStableUpIn k List.nil_prefix)

lemma keeps_any_getGadgetUdc (h : StableUp K [] I) {g : Addr} : Keeps (OnAny I) (usbgGetGadgetUdc K g) := by
  refine .bind (.bind keeps_self fun _ => .deref _) fun gad => ?_
  cases gad.udc with
  | none => exact .pure _
  | some u =>
    refine .bind (.attempt (keeps_io (h.keeps_usbgReadString List.nil_prefix))) fun r => ?_
    cases r with
    | error e => exact .pure _
    | ok buf =>
      exact .bind (.bind keeps_self fun _ => .deref _) fun udc => .ite (fun _ => .pure _) fun _ =>
        .bind keeps_any_update fun _ => .bind keeps_any_update fun _ => .pure _

lemma LibCall.keeps (h : StableUp M.kernel [] I) (c : LibCall) : Keeps (OnAny I) (c.run M) := by
  have hderef : ∀ a, Keeps (OnAny I) (derefUdc a : On Fs State Udc) := fun _ => .bind keeps_self fun _ => .deref _
  have hderef' : ∀ a, Keeps (OnAny I) (derefGadget a : On Fs State Gadget) := fun _ =>
    .bind keeps_self fun _ => .deref _
  cases c with
  | createGadget name attrs strs =>
    exact .bind (h.keeps_any_createGadgetWith fun _ => .bind (.whenSome fun _ _ =>
      h.keeps_usbgSetGadgetAttrs List.nil_prefix) fun _ => .whenSome fun _ _ =>
      h.keeps_usbgSetGadgetStrs List.nil_prefix) fun _ => .pure _
  | createGadgetVidPid name idVendor idProduct =>
    exact .bind (h.keeps_any_createGadgetWith fun _ => .bind (h.keeps_usbgWriteHex16 List.nil_prefix) fun _ =>
      h.keeps_usbgWriteHex16 List.nil_prefix) fun _ => .pure _
  | rmGadget g opts =>
    exact h.keeps_any_rmGadget
  | enableGadget g udc =>
    refine .bind keeps_self fun s => .bind ?_ fun u => .bind (hderef' _) fun gad => .bind (hderef _) fun _ =>
      .bind (keeps_io (h.keeps_usbgWriteString List.nil_prefix)) fun _ =>
      .bind (.whenSome fun _ _ => .bind (hderef _) fun _ => keeps_any_update) fun _ =>
      .bind keeps_any_update fun _ => keeps_any_update
    cases udc.or ((usbgGetFirstUdc s).map Udc.addr) with
    | none => exact .fail _
    | some u => exact .pure _
  | disableGadget g =>
    exact .bind (hderef' _) fun _ => .bind (keeps_io (h.keeps_usbgWriteString List.nil_prefix)) fun _ =>
      .bind (.whenSome fun _ _ => .bind (hderef _) fun _ => keeps_any_update) fun _ => keeps_any_update
  | getGadgetUdc g => exact .bind (keeps_any_getGadgetUdc h) fun _ => .pure _
  | getUdcGadget u =>
    refine .bind (.bind (hderef _) fun udc => ?_) fun _ => .pure _
    cases udc.gadget with
    | none => exact .pure _
    | some g =>
      refine .bind (keeps_any_getGadgetUdc h) fun r => ?_
      cases r with
      | some _ => exact .bind (hderef _) fun _ => .pure _
      | none =>
        exact .bind (hderef _) fun _ => .bind (.deref _) fun _ => .bind (hderef' _) fun _ => .bind keeps_any_update
          fun _ => .bind keeps_any_update fun _ => .pure _
  | importGadget file name =>
    exact .bind (StableUp.keeps_any_importFile fun _ => .bind
      (h.keeps_any_createGadgetWith fun _ =>
        .bind (.whenSome fun _ _ => h.keeps_usbgSetGadgetAttrs List.nil_prefix) fun _ =>
          .whenSome fun _ _ => h.keeps_usbgSetGadgetStrs List.nil_prefix) fun _ =>
      .bind (.onFail (keeps_any_onGadget h.keeps_any_importGadgetContent) h.keeps_any_rmGadget) fun _ => .pure _)
      fun _ => .pure _
  | gadget g c => exact keeps_any_onGadget (c.keeps h)

/-- What every system call keeps, holds in every run. -/
lemma holds_of_calls {allowed : LibCall → World Fs × State → Prop} {s t : World Fs × State} (h : StableUp M.kernel [] I)
    (hrun : Calls (LibCall.run M) allowed s t) (hs : I s.1) : I t.1 :=
  (hrun.invariant (OnAny I) (fun c _ _ hs => (c.keeps h).ends hs) ⟨hs, trivial⟩).1

end Libusbgx
