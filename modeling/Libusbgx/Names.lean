import Libusbgx.Source.Parse

/-!
# Names and their parts

The names of functions and configurations are put together when they are created and taken apart
again when the tree is read.  The second undoes the first; the converse fails for
configurations, since the number in a name may be written in more than one way.
-/

namespace Libusbgx

open Prog

/-! ## Functions -/

lemma FunctionType.dot_not_mem_name (t : FunctionType) : '.' ∉ t.name := by
  cases t <;> decide

/-- The name of a function is taken apart into what it was made of. -/
lemma usbgSplitFunctionInstanceType_functionName (t : FunctionType) {inst : CStr}
    (h : inst ≠ []) : usbgSplitFunctionInstanceType (functionName t inst) = .ok (t, inst) := by
  have hname : t.name ≠ [] := by cases t <;> decide
  rw [usbgSplitFunctionInstanceType, functionName, cutFirst_append t.dot_not_mem_name]
  simp [h, hname]

/-- A name that is taken apart is that of the parts. -/
lemma usbgSplitFunctionInstanceType_eq_ok {name inst : CStr} {t : FunctionType}
    (h : usbgSplitFunctionInstanceType name = .ok (t, inst)) :
    name = functionName t inst ∧ inst ≠ [] := by
  rw [usbgSplitFunctionInstanceType] at h
  cases hcut : cutFirst '.' name with
  | none =>
    rw [hcut] at h
    cases h
  | some parts =>
    obtain ⟨typeName, rest⟩ := parts
    rw [hcut] at h
    dsimp only at h
    split at h
    · cases h
    · next hne =>
      split at h
      · next t' ht =>
        obtain ⟨rfl, rfl⟩ := Prod.mk.inj (Except.ok.inj h)
        obtain ⟨rfl, -⟩ := cutFirst_eq_some.mp hcut
        refine ⟨?_, fun hi => hne (.inr hi)⟩
        rw [functionName, usbgLookupFunctionType_eq_some.mp ht]
      · cases h

/-- A name is taken apart exactly when it is that of a supported type, a dot and an instance. -/
lemma usbgSplitFunctionInstanceType_eq_ok_iff {name inst : CStr} {t : FunctionType} :
    usbgSplitFunctionInstanceType name = .ok (t, inst) ↔ name = functionName t inst ∧ inst ≠ [] := by
  refine ⟨usbgSplitFunctionInstanceType_eq_ok, ?_⟩
  rintro ⟨rfl, hinst⟩
  exact usbgSplitFunctionInstanceType_functionName t hinst

/-- Nothing that could be a type stands before the first dot, or nothing stands before or behind it. -/
def NoFunctionName (name : CStr) : Prop :=
  '.' ∉ name ∨ ∃ typeName inst, name = typeName ++ '.' :: inst ∧ '.' ∉ typeName ∧
    ((∀ t : FunctionType, t.name ≠ typeName) ∨ typeName = [] ∨ inst = [])

/-- Such a name is not that of a type, a dot and an instance. -/
lemma NoFunctionName.ne {name inst : CStr} (h : NoFunctionName name) (hinst : inst ≠ []) (t : FunctionType) :
    name ≠ functionName t inst := by
  rintro rfl
  rcases h with hdot | ⟨typeName, inst', hsplit, hdot, hcases⟩
  · exact hdot (by simp [functionName])
  · have hcut := cutFirst_append (q := inst) t.dot_not_mem_name
    rw [← functionName, hsplit, cutFirst_append hdot] at hcut
    obtain ⟨rfl, rfl⟩ := Prod.mk.inj (Option.some.inj hcut)
    rcases hcases with hno | hnil | hnil
    · exact hno t rfl
    · exact absurd hnil (by cases t <;> decide)
    · exact hinst hnil

/-- The codec of the directory names of functions: the name of a new function is taken apart into its type and its
instance; what is taken apart is the name of the function that is allocated for the parts; and every other name is
refused. -/
theorem functionNames_codec :
    (∀ (κ : Type) (path : Path) (t : FunctionType) (inst : CStr) (w : World κ), inst ≠ [] →
      ∃ f w', usbgAllocateFunction path t inst w = (.ok f, w') ∧ f.inst = inst ∧
        usbgSplitFunctionInstanceType f.name = .ok (t, inst)) ∧
    (∀ (name : CStr) (t : FunctionType) (inst : CStr), usbgSplitFunctionInstanceType name = .ok (t, inst) →
      t.name ++ '.' :: inst = name ∧ ∀ (κ : Type) (path : Path) (w : World κ),
        ∃ f w', usbgAllocateFunction path t inst w = (.ok f, w') ∧ f.name = name) ∧
    (∀ name : CStr, NoFunctionName name → ∃ e, usbgSplitFunctionInstanceType name = .error e) := by
  refine ⟨fun κ path t inst w hinst => ?_, fun name t inst h => ?_, fun name h => ?_⟩
  · exact ⟨_, _, rfl, rfl, usbgSplitFunctionInstanceType_eq_ok_iff.mpr ⟨rfl, hinst⟩⟩
  · obtain ⟨rfl, -⟩ := usbgSplitFunctionInstanceType_eq_ok_iff.mp h
    exact ⟨rfl, fun κ path w => ⟨_, _, rfl, rfl⟩⟩
  · cases hsplit : usbgSplitFunctionInstanceType name with
    | error e => exact ⟨e, rfl⟩
    | ok parts =>
      obtain ⟨hname, hinst⟩ := usbgSplitFunctionInstanceType_eq_ok_iff.mp hsplit
      exact absurd hname (h.ne hinst parts.1)

/-- An instance with a dot in it. -/
theorem functionNames_codec_dotted :
    ∃ f w', usbgAllocateFunction [] .ecm "usb.0".toList (⟨(), 0⟩ : World Unit) = (.ok f, w') ∧
      f.inst = "usb.0".toList ∧ usbgSplitFunctionInstanceType f.name = .ok (.ecm, "usb.0".toList) :=
  functionNames_codec.1 Unit [] .ecm "usb.0".toList ⟨(), 0⟩ (by decide)

/-! ## Configurations -/

/-- The name of a configuration is taken apart into what it was made of. -/
lemma usbgSplitConfigLabelId_configName {label : CStr} {id : ℤ} (h : label ≠ []) (h0 : 0 ≤ id)
    (h255 : id ≤ 255) : usbgSplitConfigLabelId (configName label id) = .ok (label, id) := by
  obtain ⟨n, rfl⟩ := Int.eq_ofNat_of_zero_le h0
  have hdot : '.' ∉ printDec n := fun hd => (isDigit_facts (isDigit_of_mem_printDec hd)).2.2.2.1 rfl
  obtain ⟨c, s, hcs⟩ : ∃ c s, printDec n = c :: s :=
    List.exists_cons_of_ne_nil (by rw [printDec_natCast]; exact Nat.toDigits_ne_nil)
  have hspace : isSpace c = false :=
    (isDigit_facts (isDigit_of_mem_printDec (n := n) (by rw [hcs]; simp))).1
  have hint : toInt n = n := by
    rw [toInt, Int.bmod_eq_of_le (by omega) (by omega)]
  rw [usbgSplitConfigLabelId, configName, cutLast_append hdot]
  dsimp only
  rw [strtol_printDec (by omega), hint, if_neg (by simp [h, hcs, hspace])]
  simp only [Bool.false_eq_true, if_false]
  rw [if_neg (by simp; omega)]

/-- The names that are taken apart: a label, a dot, and a text that spells a `long`. -/
lemma usbgSplitConfigLabelId_eq_ok_iff {name label : CStr} {id : ℤ} :
    usbgSplitConfigLabelId name = .ok (label, id) ↔
      ∃ digits v, cutLast '.' name = some (label, digits) ∧ label ≠ [] ∧ Spells 10 digits v ∧
        (-2 ^ 63 ≤ v ∧ v < 2 ^ 63) ∧ toInt v = id ∧ 0 ≤ id ∧ id ≤ 255 := by
  rw [usbgSplitConfigLabelId]
  constructor
  · intro h
    cases hcut : cutLast '.' name with
    | none =>
      rw [hcut] at h
      cases h
    | some parts =>
      obtain ⟨l, digits⟩ := parts
      rw [hcut] at h
      dsimp only at h
      split at h
      · cases h
      next hne =>
      split at h
      · cases h
      next herange =>
      split at h
      · cases h
      next hrange =>
      obtain ⟨rfl, rfl⟩ := Prod.mk.inj (Except.ok.inj h)
      push Not at hrange hne
      have hspells := (strtol_ten_iff (by simpa using hne.2.2)).mp
        ⟨hne.2.1, hrange.1, by simpa using herange, rfl⟩
      exact ⟨digits, _, rfl, hne.1, hspells.1, hspells.2, rfl, hrange.2.1, hrange.2.2⟩
  · rintro ⟨digits, v, hcut, hlabel, hspells, hfits, rfl, h0, h255⟩
    obtain ⟨hne, hrest, herange, rfl⟩ := (strtol_ten_iff hspells.no_blank).mpr ⟨hspells, hfits⟩
    rw [hcut]
    dsimp only
    rw [if_neg (by simp [hlabel, hne, hspells.no_blank]), herange, hrest]
    simp only [Bool.false_eq_true, if_false]
    rw [if_neg (by push Not; exact ⟨rfl, h0, h255⟩)]

/-- A name that is taken apart starts with the label and a dot, and the number is in range. -/
lemma usbgSplitConfigLabelId_eq_ok {name label : CStr} {id : ℤ}
    (h : usbgSplitConfigLabelId name = .ok (label, id)) :
    (∃ digits, name = label ++ '.' :: digits) ∧ label ≠ [] ∧ 0 ≤ id ∧ id ≤ 255 := by
  obtain ⟨digits, v, hcut, hlabel, -, -, -, h0, h255⟩ := usbgSplitConfigLabelId_eq_ok_iff.mp h
  exact ⟨⟨digits, (cutLast_eq_some.mp hcut).1⟩, hlabel, h0, h255⟩

/-- The name of a new configuration is taken apart into its label and its id. -/
def NamesDecode : Prop :=
  ∀ (κ : Type) (path : Path) (label : CStr) (id : ℤ) (w : World κ), label ≠ [] → 1 ≤ id → id ≤ 255 →
    ∃ c w', usbgAllocateConfig path label id w = (.ok c, w') ∧
      usbgSplitConfigLabelId c.name = .ok (label, id)

/-- Reading the bindings of a configuration changes nothing else of it. -/
lemma usbgParseConfigBindings_yields {κ : Type} (K : Kernel κ) (g : Gadget) (c : Config) :
    Yields (fun c' => c'.name = c.name ∧ c'.path = c.path ∧ c'.id = c.id)
      (usbgParseConfigBindings K g c) := by
  have hone : ∀ c' : Config, ∀ name : CStr, c'.name = c.name ∧ c'.path = c.path ∧ c'.id = c.id →
      Yields (fun c' => c'.name = c.name ∧ c'.path = c.path ∧ c'.id = c.id)
        (usbgParseConfigBinding K g c' name) := by
    intro c' name hc'
    refine Yields.bind' fun target => Yields.bind' fun targetName => Yields.bind' fun parts => ?_
    dsimp only
    split
    · exact Yields.fail _
    · exact Yields.bind' fun b => Yields.pure hc'
  refine Yields.bind' fun _ => Yields.bind' fun names => Yields.foldlM (fun c' name _ hc' => ?_) c
    ⟨rfl, rfl, rfl⟩
  exact Yields.bind' fun _ => hone c' name hc'

/-- What is known of a directory that is accepted as a configuration. -/
lemma usbgParseConfig_eq_ok {κ : Type} {K : Kernel κ} {path : Path} {name : CStr} {g g' : Gadget}
    {w w' : World κ} {c : Config} (h : usbgParseConfig K path name g w = (.ok g', w'))
    (hc : g'.configs = g.configs ++ [c]) :
    ∃ label id, usbgSplitConfigLabelId name = .ok (label, id) ∧ id ≠ 0 ∧ c.path = path ∧
      c.name = configName label id ∧ c.id = id ∧ (path ++ [configName label id]).Fits := by
  rw [usbgParseConfig] at h
  cases hsplit : usbgSplitConfigLabelId name with
  | error e =>
    rw [hsplit] at h
    cases h
  | ok parts =>
    obtain ⟨label, id⟩ := parts
    rw [hsplit, ofExcept_ok, pure_bind] at h
    dsimp only at h
    split_ifs at h with h0
    · obtain ⟨⟨rfl⟩, -⟩ := Prod.mk.inj h
      exact absurd hc (by simp)
    · obtain ⟨c₀, t, halloc, h⟩ := bind_eq_ok.mp h
      obtain ⟨c₁, u, hbindings, h⟩ := bind_eq_ok.mp h
      obtain ⟨⟨rfl⟩, rfl⟩ := Prod.mk.inj h
      obtain ⟨⟨rfl⟩, rfl⟩ := Prod.mk.inj halloc
      obtain ⟨hname, hpath, hid⟩ := usbgParseConfigBindings_yields K g _ _ _ _ hbindings
      obtain rfl : c₁ = c := by simpa using hc
      obtain ⟨_, _, hfits, -⟩ := bind_eq_ok.mp hbindings
      refine ⟨label, id, rfl, h0, hpath, hname, hid, ?_⟩
      by_contra hnot
      rw [require_of_not hnot] at hfits
      cases hfits

/-- A system whose directories are all empty. -/
def emptyDirs : Kernel Unit where
  call c _ :=
    match c with
    | .scandir _ => (.ok [], ())
    | _ => (.error .enoent, ())
  stale _ := []

/-- There, every name that can be taken apart is accepted, if its path fits. -/
lemma usbgParseConfig_emptyDirs {path : Path} {name label : CStr} {id : ℤ}
    (h : usbgSplitConfigLabelId name = .ok (label, id)) (h0 : id ≠ 0)
    (hfits : (path ++ [configName label id]).Fits) (g : Gadget) (w : World Unit) :
    ∃ g' w' c, usbgParseConfig emptyDirs path name g w = (.ok g', w') ∧
      g'.configs = g.configs ++ [c] ∧ c.name = configName label id := by
  obtain ⟨c, w', halloc⟩ : ∃ c w', usbgAllocateConfig path label id w = (.ok c, w') := ⟨_, _, rfl⟩
  have hname : c.name = configName label id ∧ c.path = path := by
    obtain ⟨⟨rfl⟩, -⟩ := Prod.mk.inj halloc
    exact ⟨rfl, rfl⟩
  have hscan : scandir emptyDirs (c.path ++ [c.name]) bindingsSelect w' = (.ok [], w') := rfl
  have hbindings : usbgParseConfigBindings emptyDirs g c w' = (.ok c, w') := by
    rw [usbgParseConfigBindings, require_of (by rwa [hname.1, hname.2]), pure_bind, bind_ok hscan]
    rfl
  refine ⟨{ g with configs := g.configs ++ [c] }, w', c, ?_, rfl, hname.1⟩
  rw [usbgParseConfig, h, ofExcept_ok, pure_bind]
  dsimp only
  rw [if_neg h0, bind_ok halloc, bind_ok hbindings]
  rfl

/-- Where a directory is accepted as a configuration, the configuration has its name, and the id
is the number in the name. -/
def NameKept (path : Path) (name : CStr) : Prop :=
  ∀ (κ : Type) (K : Kernel κ) (g g' : Gadget) (w w' : World κ) (c : Config),
    usbgParseConfig K path name g w = (.ok g', w') → g'.configs = g.configs ++ [c] →
      c.path = path ∧ c.name = name ∧
        ∀ label digits v, cutLast '.' name = some (label, digits) → Spells 10 digits v → c.id = v

/-- The number in the name is read as an id, as far as it fits in an `int`, but it is not the
decimal number that is printed for the id. -/
def Misread (path : Path) (name : CStr) : Prop :=
  ∃ label digits v, cutLast '.' name = some (label, digits) ∧ label ≠ [] ∧ Spells 10 digits v ∧
    (-2 ^ 63 ≤ v ∧ v < 2 ^ 63) ∧ (1 ≤ toInt v ∧ toInt v ≤ 255) ∧ digits ≠ printDec (toInt v) ∧
      (path ++ [configName label (toInt v)]).Fits

/-- A number that is written in another way than it is printed is not kept. -/
lemma Misread.not_nameKept {path : Path} {name : CStr} (h : Misread path name) :
    ¬ NameKept path name := by
  obtain ⟨label, digits, v, hcut, hlabel, hspells, hlong, hid, hdigits, hfits⟩ := h
  intro hkept
  have hsplit : usbgSplitConfigLabelId name = .ok (label, toInt v) :=
    usbgSplitConfigLabelId_eq_ok_iff.mpr
      ⟨digits, v, hcut, hlabel, hspells, hlong, rfl, by omega, hid.2⟩
  let g : Gadget := .allocated 0 [] []
  obtain ⟨g', w', c, hrun, hc, hname⟩ := usbgParseConfig_emptyDirs hsplit (by omega) hfits g ⟨(), 0⟩
  have heq := (hkept Unit emptyDirs g g' _ w' c hrun hc).2.1
  -- the name that is kept and the one that was read differ behind the dot
  rw [hname, configName, (cutLast_eq_some.mp hcut).1] at heq
  exact hdigits (List.cons.inj (List.append_cancel_left heq)).2.symm

/-- A configuration can be created and found again under its name.  A directory that is accepted as
a configuration is kept under its own name exactly when the number in it is not one that is written
or printed in another way. -/
theorem configNames (path : Path) (name : CStr) :
    NamesDecode ∧ (NameKept path name ↔ ¬ Misread path name) := by
  refine ⟨?_, ?_, ?_⟩
  · intro κ path label id w hlabel h1 h255
    exact ⟨_, _, rfl, usbgSplitConfigLabelId_configName hlabel (by omega) h255⟩
  · exact fun hkept hread => hread.not_nameKept hkept
  · intro hread κ K g g' w w' c hrun hc
    obtain ⟨label, id, hsplit, h0, hpath, hname, hid, hfits⟩ := usbgParseConfig_eq_ok hrun hc
    obtain ⟨digits, v, hcut, hlabel, hspells, hlong, rfl, hge, hle⟩ :=
      usbgSplitConfigLabelId_eq_ok_iff.mp hsplit
    have hdigits : digits = printDec (toInt v) := by
      by_contra hne
      exact hread ⟨label, digits, v, hcut, hlabel, hspells, hlong, ⟨by omega, hle⟩, hne, hfits⟩
    refine ⟨hpath, ?_, ?_⟩
    · rw [hname, configName, (cutLast_eq_some.mp hcut).1, hdigits]
    · intro label' digits' v' hcut' hspells'
      obtain ⟨-, rfl⟩ := Prod.mk.inj (Option.some.inj (hcut.symm.trans hcut'))
      obtain ⟨n, hn⟩ := Int.eq_ofNat_of_zero_le hge
      rw [hdigits, hn] at hspells'
      rw [hid, hn]
      exact (spells_printDec (by omega)).unique hspells' (by decide) (by decide)

/-- The directory `a.01` is kept under the name `a.1`. -/
theorem configNames_fails : ¬ NameKept ["/config".toList, gadgetsDir, "g".toList, configsDir] "a.01".toList := by
  have hdigits : ("01".toList.all fun c => (digitOf 10 c).isSome) = true := by decide
  have hspells : Spells 10 "01".toList 1 :=
    ⟨"01".toList, ⟨by decide, List.all_eq_true.mp hdigits⟩, .inl ⟨.inl rfl, by decide⟩⟩
  exact Misread.not_nameKept ⟨"a".toList, "01".toList, 1, by decide, by decide, hspells, by decide,
    by decide, by decide, by decide⟩

end Libusbgx
