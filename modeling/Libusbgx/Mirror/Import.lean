import Libusbgx.Import.Atomic
import Libusbgx.Mirror.Removal

/-!
# Attributes and imports

What is written to the files of a gadget, a function or a configuration is at none of the places.  An import is a
sequence of constructors and of such writes; when the import of a configuration fails, its clean-up is a removal.
-/

namespace Libusbgx

open Prog Machine

variable {M : Machine} {cfg : CStr} {N : Naming} {T T' : Tree} {w w' w₀ : World Fs} {g g' g₀ : Gadget} {c c₀ : Config}
  {d p : Path} {tidy same : Prop} {α : Type}

/-! ## Attributes -/

/-- A call at none of the places. -/
lemma keeps_beside_call (hM : Configfs M cfg) (hd : d.Clean) {c : Syscall} (hp : d <+: c.path)
    (hplace : ¬ Place (c.path.resolve.drop 3)) : Keeps (Beside cfg d w) (call M.kernel c) := by
  intro w' h
  refine ⟨(stable_within hM hd w).keeps_call hp w' h.within, fun q hq => ?_⟩
  refine ((kernel_change M c w').made_of_ne ?_).trans (h.places q hq)
  rintro rfl
  exact hplace hq

lemma keeps_beside_usbgCheckDir (hM : Configfs M cfg) (hd : d.Clean) (hp : d <+: p)
    (hplace : ¬ Place (p.resolve.drop 3)) :
    Keeps (Beside cfg d w) (usbgCheckDir M.kernel p) := by
  refine .bind (fun w' h => ?_) fun r => ?_
  · exact keeps_beside_call hM hd (c := .opendir p) hp hplace w' h
  · cases r with
    | ok _ => exact .pure _
    | error e => exact .ite (fun _ => keeps_beside_call hM hd (c := .mkdir p) hp hplace) fun _ => .fail _

section Gadget

variable {lang : ℤ}

/-- Calls below the directory of a language of the gadget. -/
lemma stable_beside_lang (hM : Configfs M cfg) (hd : g.dir.Clean) (hlen : g.dir.length = 3) (lang : ℤ) (w : World Fs) :
    Stable M.kernel (g.dir ++ [stringsDir, langDir lang]) (Beside cfg g.dir w) := by
  refine stable_beside hM hd (hd.append (by simp [langDir])) (List.prefix_append ..) (fun r => ?_) w
  rw [List.append_assoc, ← hlen, List.drop_left]
  rcases r with - | ⟨x, - | ⟨y, r⟩⟩
  · exact fun hr => hr.elim stringsDir_ne_configsDir fun hr => hr.elim stringsDir_ne_functionsDir
      stringsDir_ne_osDescDir
  · exact stringsDir_ne_configsDir
  · exact fun h => h

/-- `usbg_set_gadget_attrs` -/
lemma keeps_beside_usbgSetGadgetAttrs (hM : Configfs M cfg) (hd : g.dir.Clean) {attrs : GadgetAttrs} :
    Keeps (Beside cfg g.dir w) (usbgSetGadgetAttrs M.kernel g attrs) := by
  have hwrite : ∀ file buf, Keeps (Beside cfg g.dir w) (usbgWriteBuf M.kernel g.path g.name file buf) := fun file buf =>
    keeps_beside_usbgWriteBuf hM hd (by simp [Gadget.dir])
  exact .bind (hwrite _ _) fun _ => .bind (hwrite _ _) fun _ => .bind (hwrite _ _) fun _ => .bind (hwrite _ _) fun _ =>
    .bind (hwrite _ _) fun _ => .bind (hwrite _ _) fun _ => .bind (hwrite _ _) fun _ => hwrite _ _

lemma usbgSetGadgetAttrs_mirror (hM : Configfs M cfg) (h : GadgetMirrored cfg N w g) (attrs : GadgetAttrs) :
    Steps cfg N True True (io (usbgSetGadgetAttrs M.kernel g attrs)) w g :=
  steps_io h (keeps_beside_usbgSetGadgetAttrs hM h.clean)

/-- `usbg_set_gadget_strs` -/
lemma keeps_beside_usbgSetGadgetStrs (hM : Configfs M cfg) (hd : g.dir.Clean) (hlen : g.dir.length = 3)
    {strs : GadgetStrs} : Keeps (Beside cfg g.dir w) (usbgSetGadgetStrs M.kernel g lang strs) := by
  have hst := stable_beside_lang hM hd hlen lang w
  have hdir : g.path ++ [g.name, stringsDir, langDir lang] = g.dir ++ [stringsDir, langDir lang] := by simp [Gadget.dir]
  have hs : ∀ rest, g.dir ++ [stringsDir, langDir lang] <+: g.path ++ [g.name, stringsDir, langDir lang] ++ rest :=
    fun rest => hdir ▸ List.prefix_append ..
  refine .bind (.require _) fun _ => .bind (hst.keeps_usbgCheckDir (hdir ▸ List.prefix_rfl)) fun _ => ?_
  exact .bind (.whenSome fun _ _ => hst.keeps_usbgWriteString (hs _)) fun _ =>
    .bind (.whenSome fun _ _ => hst.keeps_usbgWriteString (hs _)) fun _ =>
    .whenSome fun _ _ => hst.keeps_usbgWriteString (hs _)

lemma usbgSetGadgetStrs_mirror (hM : Configfs M cfg) (h : GadgetMirrored cfg N w g) (strs : GadgetStrs) :
    Steps cfg N True True (io (usbgSetGadgetStrs M.kernel g lang strs)) w g :=
  steps_io h (keeps_beside_usbgSetGadgetStrs hM h.clean h.length_dir)

/-- `usbg_set_gadget_str` and the setters of one string -/
lemma keeps_beside_setGadgetStrFile (hM : Configfs M cfg) (h : GadgetMirrored cfg N w g) (file : CStr)
    (val : Option CStr) : Keeps (Beside cfg g.dir w) (setGadgetStrFile M.kernel g lang file val) := by
  have hst := stable_beside_lang hM h.clean h.length_dir lang w
  have hdir : g.path ++ [g.name, stringsDir, langDir lang] = g.dir ++ [stringsDir, langDir lang] := by simp [Gadget.dir]
  exact .bind (.require _) fun _ => .bind (hst.keeps_usbgCheckDir (hdir ▸ List.prefix_rfl)) fun _ =>
    hst.keeps_usbgWriteString (hdir ▸ List.prefix_append ..)

/-- `usbg_rm_gadget_strs` -/
lemma usbgRmGadgetStrs_mirror (hM : Configfs M cfg) (h : GadgetMirrored cfg N w g) :
    Steps cfg N True True (io (usbgRmGadgetStrs M.kernel g lang)) w g := by
  have hdir : g.path ++ [g.name, stringsDir, langDir lang] = g.dir ++ [stringsDir, langDir lang] := by simp [Gadget.dir]
  have hst := stable_beside_lang hM h.clean h.length_dir lang w
  refine steps_io h (.bind (.require _) fun _ => hst.keeps_usbgRmDir ?_)
  rw [hdir]
  exact List.prefix_append ..

/-- `usbg_set_gadget_os_descs` -/
lemma usbgSetGadgetOsDescs_mirror (hM : Configfs M cfg) (h : GadgetMirrored cfg N w g) (descs : GadgetOsDescs) :
    Steps cfg N True True (io (usbgSetGadgetOsDescs M.kernel g descs)) w g := by
  have hdir : g.path ++ [g.name, osDescDir] = g.dir ++ [osDescDir] := by simp [Gadget.dir]
  have hclean : (g.dir ++ [osDescDir]).Clean := h.clean.append (by simp)
  have hwrite : ∀ file buf, Keeps (Beside cfg g.dir w) (usbgWriteBuf M.kernel (g.dir ++ [osDescDir]) [] file buf) :=
    fun file buf => keeps_beside_usbgWriteBuf hM h.clean (by simp)
  have hcheck : Keeps (Beside cfg g.dir w) (usbgCheckDir M.kernel (g.dir ++ [osDescDir])) := by
    refine keeps_beside_usbgCheckDir hM h.clean (List.prefix_append ..) ?_
    rw [hclean.2, ← h.length_dir, List.drop_left]
    exact fun h => h
  rw [usbgSetGadgetOsDescs, hdir]
  refine steps_io h (.bind (.require _) fun _ => .bind hcheck fun _ => .bind ?_ fun _ => .bind (hwrite _ _) fun _ =>
    hwrite _ _)
  cases descs.qwSign with
  | none => exact .fail _
  | some _ => exact hwrite _ _

end Gadget

section Config

variable {lang : ℤ}

lemma ConfigMirrored.dir_eq {T : Tree} {fs : List Func} (h : ConfigMirrored N T d fs c) :
    c.path ++ [c.name] = d ++ [configsDir, c.name] := by
  rw [h.path]
  simp

/-- A call on the files of a configuration -/
lemma ConfigMirrored.ne_nil {T : Tree} {fs : List Func} (h : ConfigMirrored N T d fs c) : c.name ≠ [] := by
  simp [h.named, configName]

lemma usbgSetConfigAttrs_mirror (hM : Configfs M cfg) (h : GadgetMirrored cfg N w g) (hc : c ∈ g.configs)
    (attrs : ConfigAttrs) : Steps cfg N True True (io (usbgSetConfigAttrs M.kernel c attrs)) w g :=
  steps_io h (keeps_beside_usbgSetConfigAttrs hM h.clean ((h.configs c hc).dir_eq ▸ List.prefix_append ..))

lemma usbgSetConfigString_mirror (hM : Configfs M cfg) (h : GadgetMirrored cfg N w g) (hc : c ∈ g.configs)
    (str : Option CStr) : Steps cfg N True True (io (usbgSetConfigString M.kernel c lang str)) w g :=
  steps_io h (keeps_beside_usbgSetConfigString hM h.clean h.length_dir (h.configs c hc).dir_eq (h.configs c hc).ne_nil)

/-- `usbg_set_config_max_power` and `usbg_set_config_bm_attrs` -/
lemma writeConfigFile_mirror (hM : Configfs M cfg) (h : GadgetMirrored cfg N w g) (hc : c ∈ g.configs)
    (file buf : CStr) :
    Steps cfg N True True (io (usbgWriteBuf M.kernel c.path c.name file buf)) w g := by
  refine steps_io h (keeps_beside_usbgWriteBuf hM h.clean ?_)
  exact below_cons ((h.configs c hc).dir_eq ▸ List.prefix_append ..) _

/-- `usbg_rm_config_strs` -/
lemma usbgRmConfigStrs_mirror (hM : Configfs M cfg) (h : GadgetMirrored cfg N w g) (hc : c ∈ g.configs) :
    Steps cfg N True True (io (usbgRmConfigStrs M.kernel c lang)) w g := by
  have hdir : c.path ++ [c.name, stringsDir, langDir lang] =
      g.dir ++ [configsDir, c.name, stringsDir, langDir lang] := by
    simpa using congrArg (· ++ [stringsDir, langDir lang]) (h.configs c hc).dir_eq
  have hst := stable_beside hM h.clean (p := g.dir ++ [configsDir, c.name, stringsDir, langDir lang])
    (h.clean.append (by simp [(h.configs c hc).ne_nil, langDir])) (List.prefix_append ..) (fun r => by
      rw [List.append_assoc, ← h.length_dir, List.drop_left]
      cases r <;> exact fun h => h) w (M := M)
  refine steps_io h (.bind (.require _) fun _ => hst.keeps_usbgRmDir ?_)
  rw [hdir]
  exact List.prefix_append ..

end Config

section Function

variable {f : Func}

lemma FuncMirrored.dir_eq {T : Tree} (h : FuncMirrored T d f) : f.path ++ [f.name] = d ++ [functionsDir, f.name] := by
  rw [h.path]
  simp

end Function

/-! ## Imports of functions -/

/-- The sections of a function are imported in its directory. -/
lemma importFunctionContent_mirror (hM : Configfs M cfg) (h : GadgetMirrored cfg N w g) (root : Setting) (f : Addr) :
    Steps cfg N True True (importFunctionContent M.kernel (functionOps M.kernel) root f) w g := by
  refine Upholds.bind (.whenSome fun node _ => upholds_of_steps fun w g h => ?_)
    (fun _ => .whenSome fun node _ => upholds_of_steps fun w g h => ?_) _ (.refl h)
  · refine (MirrorStep.onFunction hM h fun hst k hp => .bind keeps_self fun f => ?_).mono (fun _ _ ht => ht.1)
      fun _ _ ht => ht
    cases himport : (functionOps M.kernel f.type).imprt with
    | none => exact .fail _
    | some imprt => exact (functionOps_stable M.kernel).imprt hst k hp f.type imprt node himport
  · refine (MirrorStep.onFunction hM h fun hst k hp => .forEach fun desc _ => .bind (.require _) fun _ => ?_).mono
      (fun _ _ ht => ht.1) fun _ _ ht => ht
    cases desc.getMember "interface".toList with
    | none => exact .fail _
    | some interfNode =>
      dsimp only
      cases interfNode.getString with
      | none => exact .fail _
      | some interface =>
        exact keeps_self_bind fun f hf => .bind (.require _) fun _ => .bind (.ofExcept _) fun _ =>
          keeps_io (hst.keeps_usbgSetInterfOsDesc (below_dir hp hf))

/-- `usbg_import_function_run` -/
lemma usbgImportFunctionRun_mirror (hM : Configfs M cfg) (h : GadgetMirrored cfg N w g) (root : Setting) (inst : CStr) :
    Steps cfg N True True (usbgImportFunctionRun M.kernel (functionOps M.kernel) root inst) w g := by
  cases htype : schemeType root with
  | none =>
    obtain ⟨e, he⟩ := usbgImportFunctionRun_of_none M.kernel (functionOps M.kernel) inst htype
    rw [he]
    exact .refl h
  | some type =>
    rw [usbgImportFunctionRun_eq M.kernel (functionOps M.kernel) root inst htype]
    refine Ends.bind ((usbgCreateFunction_mirror hM h).mono (fun _ _ ht => ht) fun _ _ ht =>
      ht.weaken (fun _ => .inl rfl) fun h => h) fun f t ht => ?_
    exact Upholds.bind (upholds_of_steps fun w g h => importFunctionContent_mirror hM h root f) (fun _ => .pure _) t ht

/-! ## Imports of configurations -/

/-- The function that a label finds is one of the gadget. -/
lemma usbgLookupFunction_mem {κ : Type} {w : World κ} (g : Gadget) (label : CStr) :
    Ends (fun o w' => w' = w ∧ ∀ f ∈ o, f ∈ g.functions) (fun _ w' => w' = w) True (usbgLookupFunction g label w) := by
  have hsplit : Keeps (fun w' => w' = w) (splitFunctionLabel label : Io κ (FunctionType × CStr)) := by
    refine .bind (.deref _) fun floor => .bind (.require _) fun _ => .ite (fun _ => .undef) fun _ => ?_
    cases usbgLookupFunctionType (label.take (toInt floor.1.length).toNat) with
    | none => exact .fail _
    | some type => exact .pure _
  rw [usbgLookupFunction]
  cases hf : g.functions.find? (·.label = some label) with
  | some f => exact ⟨rfl, fun f' hf' => Option.some.inj hf' ▸ List.mem_of_find?_eq_some hf⟩
  | none =>
    refine Ends.bind (R := fun _ w' => w' = w) ((Upholds.of_keeps (.attempt hsplit)) w rfl) fun r w' hw => ?_
    cases r with
    | ok found => exact ⟨hw, fun f hf => List.mem_of_find?_eq_some hf⟩
    | error e => exact ⟨hw, fun f hf => by cases hf⟩

lemma importTarget_mem (node : Setting) (w : World Fs) (g : Gadget) :
    Ends (fun f t => t = (w, g) ∧ f ∈ g.functions) (fun _ t => t = (w, g)) True (importTarget node (w, g)) := by
  rw [importTarget]
  cases node.getString with
  | none => exact rfl
  | some label =>
    dsimp only
    rw [self_bind_apply]
    refine Ends.bind (R := fun o t => t = (w, g) ∧ ∀ f ∈ o, f ∈ g.functions)
      (ends_io ((usbgLookupFunction_mem g label).mono (fun _ w' ht => ?_) fun _ w' ht => ?_)) ?_
    · rw [ht.1]
      exact ⟨rfl, ht.2⟩
    · rw [ht]
    · rintro o t ⟨rfl, hmem⟩
      cases o with
      | none => exact rfl
      | some f => exact ⟨rfl, hmem f rfl⟩

/-- The function of a binding. -/
lemma importBindingFunction_mirror (hM : Configfs M cfg) (h : GadgetMirrored cfg N w g) (node : Setting) :
    Ends (fun f t => MirrorStep cfg N True True w g t ∧ f ∈ t.2.functions) (fun _ => MirrorStep cfg N True True w g)
      True
      (importBindingFunction M.kernel (functionOps M.kernel) node (w, g)) := by
  rw [importBindingFunction]
  refine Ends.ite (fun _ => ?_) fun _ => Ends.ite (fun _ => ?_) fun _ => .refl h
  · refine (importTarget_mem node w g).mono (fun f t ht => ?_) fun _ t ht => ?_
    · rw [ht.1]
      exact ⟨.refl h, ht.2⟩
    · rw [ht]
      exact .refl h
  · cases node.getMember "instance".toList with
    | none => exact .refl h
    | some instNode =>
      dsimp only
      cases instNode.getString with
      | none => exact .refl h
      | some inst =>
        refine Ends.bind (usbgImportFunctionRun_mirror hM h node inst) fun f t ht => ?_
        rw [self_bind_apply]
        cases hf : t.2.function? f with
        | none => exact trivial
        | some func => exact ⟨ht, find?_key_mem hf⟩

/-- `usbg_import_config_bindings` -/
lemma usbgImportConfigBindings_mirror (hM : Configfs M cfg) (hN : N.Renders cfg) (h : GadgetMirrored cfg N w g)
    (root : Setting)
    (a : Addr) : Steps cfg N True True (usbgImportConfigBindings M.kernel (functionOps M.kernel) root a) w g := by
  have hadd : ∀ (w : World Fs) (g : Gadget) (name : CStr) (f : Func), GadgetMirrored cfg N w g → f ∈ g.functions →
      Steps cfg N True True (onConfig a (usbgAddConfigFunction M.kernel (some name) f)) w g :=
    fun w g name f h hf => ConfigStep.onConfig fun c hc _ => usbgAddConfigFunction_mirror hM h hc hf hN
  refine Upholds.forEach (fun node _ => .ite (fun _ => upholds_of_steps fun w g h => ?_) fun _ =>
    .ite (fun _ => upholds_of_steps fun w g h => ?_) fun _ => .fail _) _ (.refl h)
  · refine Ends.bind ((importTarget_mem node w g).mono (fun f t ht => ht) fun _ t ht => ?_) fun f t ht => ?_
    · rw [ht]
      exact .refl h
    · rw [ht.1]
      exact hadd w g f.name f h ht.2
  · rw [Steps, usbgImportBindingGroup]
    cases node.getMember "function".toList with
    | none => exact .refl h
    | some function =>
      refine Ends.bind (importBindingFunction_mirror hM h function) fun f t ht => ?_
      cases hname : importBindingName node f with
      | error e => exact ht.1
      | ok name =>
        exact (hadd t.1 t.2 name f ht.1.mirrored ht.2).mono (fun _ _ ht' => ht.1.seq ht') fun _ _ ht' => ht.1.seq ht'

/-- Work in the tree leaves the gadget at hand as it is. -/
lemma upholds_still {m : Io Fs Unit} (hm : ∀ w', GadgetMirrored cfg N w' g → Steps cfg N True True (io m) w' g) :
    Upholds (fun t => MirrorStep cfg N True True w g t ∧ t.2 = g) (io m) := by
  rintro ⟨w₁, g₁⟩ ⟨hstep, hg⟩
  obtain rfl : g = g₁ := hg.symm
  have hends := hm w₁ hstep.mirrored
  rw [Steps, io_apply] at hends
  rw [io_apply]
  rcases hr : m w₁ with ⟨_ | _ | _, w'⟩ <;> rw [hr] at hends
  · exact ⟨hstep.seq hends, rfl⟩
  · exact ⟨hstep.seq hends, rfl⟩
  · trivial

/-- `usbg_import_config_strings` -/
lemma usbgImportConfigStrings_mirror (hM : Configfs M cfg) (h : GadgetMirrored cfg N w g) (hc : c ∈ g.configs)
    (root : Setting) : Steps cfg N True True (io (usbgImportConfigStrings M.kernel root c)) w g :=
  steps_io h (.forEach fun _ _ => .bind (.require _) fun _ => .bind (.ofExcept _) fun _ => .bind (.ofExcept _) fun _ =>
    keeps_beside_usbgSetConfigString hM h.clean h.length_dir (h.configs c hc).dir_eq (h.configs c hc).ne_nil)

/-- `usbg_import_config_attrs` -/
lemma usbgImportConfigAttrs_mirror (hM : Configfs M cfg) (h : GadgetMirrored cfg N w g) (hc : c ∈ g.configs)
    (root : Setting) : Steps cfg N True True (io (usbgImportConfigAttrs M.kernel root c)) w g := by
  have hattr : ∀ name (set : ℤ → Io Fs Unit), (∀ v, Keeps (Beside cfg g.dir w) (set v)) →
      Keeps (Beside cfg g.dir w) (importConfigAttr root name set) := by
    intro name set hset
    rw [importConfigAttr]
    cases root.getMember name with
    | none => exact .pure _
    | some node => exact .ite (fun _ => .fail _) fun _ => hset _
  have hdir : g.dir <+: c.path ++ [c.name] := (h.configs c hc).dir_eq ▸ List.prefix_append ..
  exact steps_io h (.bind (hattr _ _ fun _ => keeps_beside_usbgWriteBuf hM h.clean (below_cons hdir _)) fun _ =>
    hattr _ _ fun _ => keeps_beside_usbgWriteBuf hM h.clean (below_cons hdir _))

/-- The sections of a configuration -/
lemma importConfigContent_mirror (hM : Configfs M cfg) (hN : N.Renders cfg) (h : GadgetMirrored cfg N w g)
    (root : Setting) (a : Addr) : Steps cfg N True True (importConfigContent M.kernel (functionOps M.kernel) root a) w g := by
  rw [Steps, importConfigContent, self_bind_apply]
  refine Ends.deref_bind (fun c hc => ?_) fun _ => trivial
  have hmem : c ∈ g.configs := find?_key_mem hc
  -- the configuration at hand is the one that the state holds as long as no binding is imported
  refine Ends.bind ((Upholds.whenSome (fun node _ => .bind (.require _) fun _ =>
    upholds_still fun w' h' => usbgImportConfigAttrs_mirror hM h' hmem node) _ ⟨.refl h, rfl⟩).mono (fun _ _ ht => ht)
    fun _ _ ht => ht.1) fun _ t ht => ?_
  refine Ends.bind ((Upholds.whenSome (fun node _ => .bind (.require _) fun _ =>
    upholds_still fun w' h' => usbgImportConfigStrings_mirror hM h' hmem node) t ht).mono (fun _ _ ht => ht)
    fun _ _ ht => ht.1) fun _ t ht => ?_
  exact Upholds.whenSome (fun node _ => .bind (.require _) fun _ => upholds_of_steps fun w g h =>
    usbgImportConfigBindings_mirror hM hN h node a) t ht.1

/-- What is known of labels holds of the one that the scheme of a configuration gives. -/
def ConfigLabelled (N : Naming) (root : Setting) : Prop := ∀ name ∈ schemeName root, N.label name

/-- `usbg_import_config_run` -/
lemma usbgImportConfigRun_mirror (hM : Configfs M cfg) (hN : N.Renders cfg) (h : GadgetMirrored cfg N w g)
    {root : Setting} (hroot : ConfigLabelled N root) (id : ℤ) :
    Steps cfg N True True (usbgImportConfigRun M.kernel (functionOps M.kernel) root id) w g := by
  cases hname : schemeName root with
  | none =>
    obtain ⟨e, he⟩ := usbgImportConfigRun_of_none M.kernel (functionOps M.kernel) id hname
    rw [he]
    exact .refl h
  | some name =>
    rw [usbgImportConfigRun_eq M.kernel (functionOps M.kernel) root id hname]
    have hst : Stable M.kernel [] fun w => 0 ≤ w.next := (stable_next M.kernel 0).toStable
    have hlabel : N.label ((some name).getD defaultConfigLabel) := hroot name hname
    refine Ends.bind (((usbgCreateConfig_mirror hM h hlabel).and
      (usbgCreateConfig_ends hst (Nat.zero_le w.next) List.nil_prefix)).mono_undef (fun _ _ ht => ht)
        (fun _ _ ht => ht.1.weaken (fun _ => .inl ⟨rfl, rfl⟩) fun h => h)
      fun _ => trivial) ?_
    rintro a t ⟨hstep, -, rfl, -, -⟩
    refine Ends.bind (Ends.onFail (F := fun _ => MirrorStep cfg N True True w g)
      (upholds_of_steps (fun w g h => importConfigContent_mirror hM hN h root _) t hstep) ?_) fun _ _ ht => ht
    -- the new configuration is not the one with the OS descriptors
    rintro e ⟨w', g'⟩ ht
    have hne : (true : Bool) = true → g'.osDescBinding ≠ some w.next := by
      intro _ hos
      rw [(ht.os trivial).binding] at hos
      exact lt_irrefl _ (h.freshOs w.next hos)
    exact (usbgRmConfig_mirror hM ht.mirrored w.next true).mono
      (fun _ _ hr => ht.seq (hr.weaken (fun h => h) fun _ => hne))
      fun _ _ hr => ht.seq (hr.weaken (fun h => h) fun _ => hne)

/-! ## Imports of gadgets -/

/-- A label is none of the things that the directory shows. -/
lemma relabel_mirror (h : GadgetMirrored cfg N w g) (a : Addr) (label : CStr) :
    Steps cfg N True True (onFunction a (update fun f => { f with label := some label })) w g := by
  cases hf : g.function? a with
  | none =>
    rw [Steps, onFunction, zoom_none (by rw [hf]; rfl)]
    trivial
  | some f =>
    refine ends_onFunction hf ?_
    exact .updateFunction h (find?_key_mem hf) rfl (.refl h.shaped _) (.refl _)

/-- `usbg_import_gadget_functions` -/
lemma usbgImportGadgetFunctions_mirror (hM : Configfs M cfg) (h : GadgetMirrored cfg N w g) (root : Setting) :
    Steps cfg N True True (usbgImportGadgetFunctions M.kernel (functionOps M.kernel) root) w g := by
  refine Upholds.forEach (fun m _ => .bind (.require _) fun _ => ?_) _ (.refl h)
  cases m.2.getMember "instance".toList with
  | none => exact .fail _
  | some instNode =>
    dsimp only
    cases instNode.getString with
    | none => exact .fail _
    | some inst =>
      exact .bind (upholds_of_steps fun w g h => usbgImportFunctionRun_mirror hM h m.2 inst) fun f =>
        upholds_of_steps fun w g h => relabel_mirror h f m.1

/-- What is known of labels holds of those that the scheme of a gadget gives to its configurations. -/
def GadgetLabelled (N : Naming) (root : Setting) : Prop :=
  ∀ configs ∈ root.getMember "configs".toList, ∀ node ∈ configs.elems, ConfigLabelled N node

/-- `usbg_import_gadget_configs` -/
lemma usbgImportGadgetConfigs_mirror (hM : Configfs M cfg) (hN : N.Renders cfg) (h : GadgetMirrored cfg N w g)
    {root : Setting}
    (hroot : ∀ node ∈ root.elems, ConfigLabelled N node) :
    Steps cfg N True True (usbgImportGadgetConfigs M.kernel (functionOps M.kernel) root) w g := by
  refine Upholds.forEach (fun node hnode => .bind (.require _) fun _ => ?_) _ (.refl h)
  cases node.getMember "id".toList with
  | none => exact .fail _
  | some idNode =>
    exact .bind (.require _) fun _ => .bind (upholds_of_steps fun w g h =>
      usbgImportConfigRun_mirror hM hN h (hroot node hnode) _) fun _ => .pure _

/-- `usbg_import_gadget_os_descs` -/
lemma usbgImportGadgetOsDescs_mirror (hM : Configfs M cfg) (hN : N.Renders cfg) (h : GadgetMirrored cfg N w g)
    (root : Setting) :
    Steps cfg N True False (usbgImportGadgetOsDescs M.kernel root) w g := by
  have hlink : ∀ ret, Upholds (MirrorStep cfg N True False w g) (importOsDescConfig M.kernel root ret) := by
    intro ret
    rw [importOsDescConfig]
    cases root.getMember "config_id".toList with
    | none => exact .ofExcept _
    | some node =>
      refine .ite (fun _ => .ofExcept _) fun _ => .bind (.of_keeps fun _ h => h) fun g' => ?_
      cases usbgGetConfig g' node.getInt none with
      | none => exact .fail _
      | some target =>
        refine .bind (.attempt (upholds_of_steps fun w g h => ?_)) fun _ => .ofExcept _
        exact (usbgSetOsDescConfig_mirror hM hN h _).mono (fun _ _ ht => ht) fun _ _ ht => ht.any
  refine Upholds.bind (.ofExcept _) (fun use => .bind (.ofExcept _) fun bVendorCode => .bind (.ofExcept _)
    fun qwSign => ?_)
    _ ((MirrorStep.refl h).any)
  rintro ⟨w', g'⟩ ht
  rw [self_bind_apply]
  have hset := usbgSetGadgetOsDescs_mirror hM ht.mirrored
    { use := use.getD 0 ≠ 0, bVendorCode := UInt8.ofNat (bVendorCode.getD 0).toNat, qwSign }
  exact Ends.attempt_bind hset (fun _ t ht' => hlink _ t (ht.seq ht'.any)) fun _ t ht' => hlink _ t (ht.seq ht'.any)

/-- `usbg_import_gadget_strings` -/
lemma usbgImportGadgetStrings_mirror (hM : Configfs M cfg) (h : GadgetMirrored cfg N w g) (root : Setting) :
    Steps cfg N True True (io (usbgImportGadgetStrings M.kernel root g)) w g := by
  refine steps_io h (.forEach fun _ _ => .bind (.require _) fun _ => .bind (.ofExcept _) fun lang =>
    .bind (.ofExcept _) fun _ => .bind (.ofExcept _) fun _ => .bind (.ofExcept _) fun _ => ?_)
  exact keeps_beside_usbgSetGadgetStrs hM h.clean h.length_dir

/-- `usbg_import_gadget_attrs` -/
lemma usbgImportGadgetAttrs_mirror (hM : Configfs M cfg) (h : GadgetMirrored cfg N w g) (root : Setting) :
    Steps cfg N True True (io (usbgImportGadgetAttrs M.kernel root g)) w g := by
  have hattr : ∀ bytes name (set : ℤ → Io Fs Unit), (∀ v, Keeps (Beside cfg g.dir w) (set v)) →
      Keeps (Beside cfg g.dir w) (importGadgetAttr bytes root name set) := fun bytes name set hset =>
    .bind (.ofExcept _) fun _ => .whenSome fun v _ => hset v
  have hwrite : ∀ file buf, Keeps (Beside cfg g.dir w) (usbgWriteBuf M.kernel g.path g.name file buf) := fun file buf =>
    keeps_beside_usbgWriteBuf hM h.clean (by simp [Gadget.dir])
  exact steps_io h (.bind (hattr _ _ _ fun _ => hwrite _ _) fun _ => .bind (hattr _ _ _ fun _ => hwrite _ _) fun _ =>
    .bind (hattr _ _ _ fun _ => hwrite _ _) fun _ => .bind (hattr _ _ _ fun _ => hwrite _ _) fun _ =>
    .bind (hattr _ _ _ fun _ => hwrite _ _) fun _ => .bind (hattr _ _ _ fun _ => hwrite _ _) fun _ =>
    .bind (hattr _ _ _ fun _ => hwrite _ _) fun _ => hattr _ _ _ fun _ => hwrite _ _)

/-- The sections of a gadget up to the OS descriptors leave the OS descriptor link alone. -/
lemma importGadgetContent_sections {Q : World Fs × Gadget → Prop} (hM : Configfs M cfg) (hN : N.Renders cfg)
    (h : GadgetMirrored cfg N w g) {root : Setting} (hroot : GadgetLabelled N root)
    (hQ : ∀ t, MirrorStep cfg N True True w g t → Q t)
    (hos : ∀ node t, MirrorStep cfg N True True w g t →
      Ends (fun _ => Q) (fun _ => Q) True (usbgImportGadgetOsDescs M.kernel node t)) :
    Ends (fun _ => Q) (fun _ => Q) True (importGadgetContent M.kernel (functionOps M.kernel) root (w, g)) := by
  rw [importGadgetContent, self_bind_apply]
  refine Ends.bind ((Upholds.whenSome (fun node _ => .bind (.require _) fun _ =>
    upholds_still fun w' h' => usbgImportGadgetAttrs_mirror hM h' node) (w, g) ⟨.refl h, rfl⟩).mono (fun _ _ ht => ht)
    fun _ t ht => hQ t ht.1) fun _ t ht => ?_
  refine Ends.bind ((Upholds.whenSome (fun node _ => .bind (.require _) fun _ =>
    upholds_still fun w' h' => usbgImportGadgetStrings_mirror hM h' node) t ht).mono (fun _ _ ht => ht.1)
    fun _ t ht => hQ t ht.1) fun _ t ht => ?_
  refine Ends.bind ((Upholds.whenSome (fun node _ => .bind (.require _) fun _ => upholds_of_steps fun w g h =>
    usbgImportGadgetFunctions_mirror hM h node) t ht).mono (fun _ _ ht => ht) fun _ => hQ) fun _ t ht => ?_
  refine Ends.bind ((Upholds.whenSome (fun node hnode => .bind (.require _) fun _ => upholds_of_steps fun w g h =>
    usbgImportGadgetConfigs_mirror hM hN h (hroot node hnode)) t ht).mono (fun _ _ ht => ht)
    fun _ => hQ) fun _ t ht => ?_
  cases root.getMember "os_descs".toList with
  | none => exact hQ t ht
  | some node => exact Ends.require_bind (fun _ => hos node t ht) fun _ => hQ t ht

/-- The sections of a gadget -/
lemma importGadgetContent_mirror (hM : Configfs M cfg) (hN : N.Renders cfg) (h : GadgetMirrored cfg N w g)
    {root : Setting} (hroot : GadgetLabelled N root) :
    Steps cfg N True False (importGadgetContent M.kernel (functionOps M.kernel) root) w g :=
  importGadgetContent_sections hM hN h hroot (fun _ ht => ht.any) fun node _ ht =>
    (upholds_of_steps fun _ _ h => usbgImportGadgetOsDescs_mirror hM hN h node) _ ht.any

/-! ## Files -/

/-- The record of a failed import is none of the lists. -/
lemma MirrorStep.record {t : World Fs × Gadget} (h : MirrorStep cfg N tidy same w g t) (r : Option ConfigFile) :
    MirrorStep cfg N tidy same w g (t.1, t.2.setFailedImport r) :=
  { h with
    mirrored := { h.mirrored with os := { h.mirrored.os with } }
    tidy := fun hp ht => ⟨(h.tidy hp ht).functions, (h.tidy hp ht).configs⟩
    strays := fun ht => h.strays ⟨ht.functions, ht.configs⟩
    os := fun hp => ⟨(h.os hp).made, (h.os hp).binding⟩ }

lemma importFile_mirror {run : Setting → On Fs Gadget Addr} {file : ConfigFile} (h : GadgetMirrored cfg N w g)
    (hrun : ∀ root, file = .parsed root → Steps cfg N True True (run root) w g) :
    Steps cfg N True True (importFile Gadget.setFailedImport run file) w g := by
  cases file with
  | failed text line => exact (MirrorStep.refl h).record _
  | parsed root =>
    exact Ends.attempt_bind (hrun root rfl) (fun _ _ ht => ht.record _) fun _ _ ht => ht.record _

end Libusbgx
