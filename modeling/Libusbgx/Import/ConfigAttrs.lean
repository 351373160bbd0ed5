import Libusbgx.Attributes.Files
import Libusbgx.Configfs.Shape
import Libusbgx.Configfs.WellFormed
import Libusbgx.Creation
import Libusbgx.Import.Records
import Libusbgx.Source.Import

/-!
# The attributes of a configuration

A configuration has two attributes.  A caller gives each as an `int`, the file holds it as such, and it
is read into one byte.  The setters do not look at the value, and neither does the import.
-/

namespace Libusbgx

open Prog Machine

variable {M : Machine} {T T' : Tree} {w : World Fs} {g : Gadget} {p q d : Path} {n : Node CStr CStr} {a : Addr}
  {k : Config.Core} {ops : FunctionType → FunctionOps Fs}

/-! ## What stays at a path -/

namespace Machine.Change

/-- Making a directory changes nothing that is there. -/
lemma get_mkdir {path : Path} (h : Change M T (.mkdir path) T') (hq : T.get q = some n) : T'.get q = some n := by
  cases h with
  | same => exact hq
  | mkdir => rw [get_newDir, hq, Option.some_or]
  | rmdir _ hc => exact hc.elim
  | unlink _ hc => exact hc.elim

/-- Neither does making a link. -/
lemma get_symlink {target path : Path} (h : Change M T (.symlink target path) T') (hq : T.get q = some n) :
    T'.get q = some n := by
  cases h with
  | same => exact hq
  | symlink => rw [FileTree.get_add, hq, Option.some_or]
  | rmdir _ hc => exact hc.elim
  | unlink _ hc => exact hc.elim

end Machine.Change

/-- The node at a path. -/
def NodeAt (q : Path) (n : Node CStr CStr) (w : World Fs) : Prop := w.tree.get q = some n

lemma keeps_mkdir {path : Path} : Keeps (NodeAt q n) (call M.kernel (.mkdir path)) :=
  fun w hw => (kernel_change M (.mkdir path) w).get_mkdir hw

lemma keeps_symlink {target path : Path} : Keeps (NodeAt q n) (call M.kernel (.symlink target path)) :=
  fun w hw => (kernel_change M (.symlink target path) w).get_symlink hw

/-- What happens below `p` leaves a node alone that is not there. -/
lemma stableUpIn_nodeAt (hp : p ≠ []) (hq : ¬ p.resolve <+: q) : StableUpIn M.kernel p (NodeAt q n) where
  atCall c w hc _ hw := by
    have hbelow : p.resolve <+: c.path.resolve := by
      obtain ⟨r, hr⟩ := hc
      rw [← hr, Path.resolve_append hp]
      exact List.prefix_append ..
    exact ((kernel_change M c w).outside hbelow q hq).trans hw
  atMalloc _ hw := hw
  atMkdir path w _ hw := (kernel_change M (.mkdir path) w).get_mkdir hw

/-! ## A gadget and what is in its directory -/

/-- The functions and the configurations of a gadget are where its constructors put them. -/
structure Gadget.InPlace (d : Path) (g : Gadget) : Prop where
  dir : g.dir = d
  functions : ∀ f ∈ g.functions, f.path = d ++ [functionsDir]
  configs : ∀ c ∈ g.configs, c.path = d ++ [configsDir]

/-- A gadget in place, with the configuration at an address. -/
structure Holding (d : Path) (a : Addr) (k : Config.Core) (g : Gadget) : Prop extends g.InPlace d where
  config : (g.config? a).map Config.core = some k

namespace Gadget.InPlace

lemma dir_append (h : g.InPlace d) (name : CStr) : g.path ++ [g.name, name] = d ++ [name] := by
  rw [← h.dir, Gadget.dir, List.append_assoc]
  rfl

/-- A new function is put where the others are. -/
lemma insertFunction (h : g.InPlace d) {f : Func} (hf : f.path = d ++ [functionsDir]) :
    ({ g with functions := insertSorted Func.name f g.functions } : Gadget).InPlace d where
  dir := h.dir
  functions f' hf' := (mem_insertSorted.mp hf').elim (fun heq => heq ▸ hf) (h.functions f')
  configs := h.configs

/-- So is a new configuration. -/
lemma insertConfig (h : g.InPlace d) {c : Config} (hc : c.path = d ++ [configsDir]) :
    ({ g with configs := insertSorted Config.name c g.configs } : Gadget).InPlace d where
  dir := h.dir
  functions := h.functions
  configs c' hc' := (mem_insertSorted.mp hc').elim (fun heq => heq ▸ hc) (h.configs c')

/-- A function that is changed stays where it is. -/
lemma setFunction (h : g.InPlace d) {f f' : Func} (hf : f ∈ g.functions) (hcore : f'.core = f.core) :
    (g.setFunction f').InPlace d where
  dir := h.dir
  functions f'' hf'' := by
    obtain ⟨f₀, hf₀, rfl⟩ := List.mem_map.mp hf''
    split
    · exact (congrArg Func.Core.path hcore).trans (h.functions f hf)
    · exact h.functions f₀ hf₀
  configs := h.configs

/-- So does a configuration. -/
lemma setConfig (h : g.InPlace d) {c c' : Config} (hc : c ∈ g.configs) (hcore : c'.core = c.core) :
    (g.setConfig c').InPlace d where
  dir := h.dir
  functions := h.functions
  configs c'' hc'' := by
    obtain ⟨c₀, hc₀, rfl⟩ := List.mem_map.mp hc''
    split
    · exact (congrArg Config.Core.path hcore).trans (h.configs c hc)
    · exact h.configs c₀ hc₀

end Gadget.InPlace

/-- Every gadget that `usbg_init` reads is in place. -/
lemma ParsedGadget.inPlace {lo hi : Addr} (h : ParsedGadget T lo hi g) : g.InPlace g.dir where
  dir := rfl
  functions f hf := by
    obtain ⟨name, -, hparsed⟩ := exists_of_forall₂ h.functions hf
    rw [hparsed.path, Gadget.dir, List.append_assoc]
    rfl
  configs c hc := by
    obtain ⟨name, -, hparsed⟩ := h.config hc
    rw [hparsed.path, Gadget.dir, List.append_assoc]
    rfl

/-- A change to a configuration leaves the cores of all as they are. -/
lemma core_config?_setConfig {b : Addr} {c c' : Config} (hc : g.config? b = some c) (hcore : c'.core = c.core) (a : Addr) :
    ((g.setConfig c').config? a).map Config.core = (g.config? a).map Config.core := by
  have hb : c.addr = b := find?_key_key hc
  have haddr : c'.addr = b := (congrArg Config.Core.addr hcore).trans hb
  have hkey : ∀ x : Config, (if x.addr = c'.addr then c' else x).addr = x.addr := by
    intro x
    split
    · rename_i heq
      exact heq.symm
    · rfl
  have hmap : (g.setConfig c').config? a = (g.config? a).map fun x => if x.addr = c'.addr then c' else x :=
    find?_key_map hkey g.configs a
  rw [hmap]
  cases hfind : g.config? a with
  | none => rfl
  | some c₀ =>
    rw [Option.map_some, Option.map_some, Option.map_some]
    split
    · rename_i heq
      have ha : c₀.addr = a := find?_key_key hfind
      rw [← ha, heq, haddr, hc] at hfind
      rw [hcore, Option.some.inj hfind]
    · rfl

/-! ## What an import leaves alone -/

namespace Holding

lemma setFunction (h : Holding d a k g) {f f' : Func} (hf : f ∈ g.functions) (hcore : f'.core = f.core) :
    Holding d a k (g.setFunction f') :=
  { h.toInPlace.setFunction hf hcore with config := h.config }

lemma setConfig (h : Holding d a k g) {b : Addr} {c c' : Config} (hc : g.config? b = some c)
    (hcore : c'.core = c.core) : Holding d a k (g.setConfig c') :=
  { h.toInPlace.setConfig (List.mem_of_find?_eq_some hc) hcore with
    config := (core_config?_setConfig hc hcore a).trans h.config }

end Holding

/-- The functions are below their directory. -/
lemma functionsBelow_holding : FunctionsBelow (d ++ [functionsDir]) (Holding d a k) where
  function _ hg f hf := by
    rw [hg.functions f hf]
    exact List.prefix_append ..
  put _ _ _ _ hg hf hcore := hg.setFunction (List.mem_of_find?_eq_some hf) hcore

/-- The search for a function calls nothing. -/
lemma keeps_usbgLookupFunction {I : World Fs → Prop} {g : Gadget} {label : CStr} :
    Keeps I (usbgLookupFunction g label) := by
  have hsplit : Keeps I (splitFunctionLabel label : Io Fs (FunctionType × CStr)) := by
    refine .bind (.deref _) fun floor => .bind (.require _) fun _ => .ite (fun _ => .undef) fun _ => ?_
    cases usbgLookupFunctionType (label.take (toInt floor.1.length).toNat) with
    | none => exact .fail _
    | some type => exact .pure _
  rw [usbgLookupFunction]
  cases g.functions.find? (·.label = some label) with
  | some f => exact .pure _
  | none =>
    refine .bind (.attempt hsplit) fun r => ?_
    cases r with
    | ok found => exact .pure _
    | error e => exact .pure _

lemma keeps_importTarget {I : World Fs → Prop} {P : Gadget → Prop} {node : Setting} :
    Keeps (With I P) (importTarget node) := by
  rw [importTarget]
  cases node.getString with
  | none => exact .fail _
  | some label =>
    refine .bind keeps_self fun g => .bind (keeps_io keeps_usbgLookupFunction) fun target => ?_
    cases target with
    | none => exact .fail _
    | some f => exact .pure _

/-- A binding is a new link. -/
lemma keeps_usbgAddConfigFunction {b : Addr} {name : Option CStr} {f : Func} :
    Keeps (With (NodeAt q n) (Holding d a k)) (onConfig b (usbgAddConfigFunction M.kernel name f)) := by
  refine keeps_part (fun g => g.config? b) Gadget.setConfig (fun c c' => c'.core = c.core) (fun c => ?_)
    (fun _ => rfl) fun g c c' hc (hg : Holding d a k g) hcore => hg.setConfig hc hcore
  exact .bind keeps_self fun _ => .bind (.require _) fun _ => .bind (.require _) fun _ =>
    .bind (.require _) fun _ => .bind (.require _) fun _ => .bind (keeps_io (.pure _)) fun _ =>
    .bind (.require _) fun _ => .bind (keeps_io keeps_symlink) fun _ => keeps_update fun _ hc => hc

section Functions

variable (hd : d ≠ []) (hq : ¬ (d ++ [functionsDir]).resolve <+: q) (hops : OpsStable M.kernel ops)

include hd hq

lemma stableUpIn_functions : StableUpIn M.kernel (d ++ [functionsDir]) (NodeAt q n) :=
  stableUpIn_nodeAt (by simp [hd]) hq

/-- A function that is created without attributes is a new directory. -/
lemma keeps_usbgCreateFunction {type : FunctionType} {inst : CStr} :
    Keeps (With (NodeAt q n) (Holding d a k)) (usbgCreateFunction M.kernel ops type inst none) := by
  have hst := stableUpIn_functions (M := M) (n := n) hd hq
  refine .bind (.require _) fun _ => keeps_self_bind fun g hg => .bind (.require _) fun _ => .bind (.require _) fun _ =>
    Yields.keeps_bind (R := fun f : Func => f.path = g.path ++ [g.name, functionsDir]) ?_
      (keeps_io hst.keeps_usbgAllocateFunction) fun f hf => ?_
  · rintro ⟨w, g'⟩ f t ⟨⟩
    rfl
  rw [hg.dir_append] at hf
  refine .bind (.require _) fun _ => .bind (keeps_io keeps_mkdir) fun _ => ?_
  show Keeps _ ((update fun g : Gadget => { g with functions := insertSorted Func.name f g.functions }) >>=
    fun _ => pure f.addr)
  exact .bind (keeps_update fun g (hg : Holding d a k g) =>
    { hg.toInPlace.insertFunction hf with config := hg.config }) fun _ => .pure _

include hops

/-- The import of a function works in the directory of the functions. -/
lemma keeps_usbgImportFunctionRun {root : Setting} {inst : CStr} :
    Keeps (With (NodeAt q n) (Holding d a k)) (usbgImportFunctionRun M.kernel ops root inst) := by
  have hst := stableUpIn_functions (M := M) (n := n) hd hq
  have hattrs : ∀ (f : Addr) (node : Setting),
      Keeps (With (NodeAt q n) (Holding d a k)) (onFunction f (usbgImportFunctionAttrs ops node)) := by
    refine fun f node => keeps_onFunction functionsBelow_holding fun c hc => .bind keeps_self fun f => ?_
    cases himport : (ops f.type).imprt with
    | none => exact .fail _
    | some imprt => exact hops.imprt hst c hc f.type imprt node himport
  have hdescs : ∀ (f : Addr) (node : Setting),
      Keeps (With (NodeAt q n) (Holding d a k)) (onFunction f (usbgImportFunctionOsDescs M.kernel node)) := by
    refine fun f node => keeps_onFunction functionsBelow_holding fun c hc => .forEach fun desc _ =>
      .bind (.require _) fun _ => ?_
    cases desc.getMember "interface".toList with
    | none => exact .fail _
    | some interfNode =>
      dsimp only
      cases interfNode.getString with
      | none => exact .fail _
      | some interface =>
        exact keeps_self_bind fun f hf => .bind (.require _) fun _ => .bind (.ofExcept _) fun _ =>
          keeps_io (hst.keeps_usbgSetInterfOsDesc (below_dir hc hf))
  rw [usbgImportFunctionRun]
  cases root.getMember "type".toList with
  | none => exact .fail _
  | some node =>
    dsimp only
    cases node.getString with
    | none => exact .fail _
    | some typeStr =>
      dsimp only
      cases usbgLookupFunctionType typeStr with
      | none => exact .fail _
      | some type =>
        exact .bind (keeps_usbgCreateFunction hd hq) fun f => .bind (.whenSome fun node _ => hattrs f node) fun _ =>
          .bind (.whenSome fun node _ => hdescs f node) fun _ => .pure _

lemma keeps_importBindingFunction {node : Setting} :
    Keeps (With (NodeAt q n) (Holding d a k)) (importBindingFunction M.kernel ops node) := by
  refine .ite (fun _ => keeps_importTarget) fun _ => .ite (fun _ => ?_) fun _ => .fail _
  cases node.getMember "instance".toList with
  | none => exact .fail _
  | some instNode =>
    dsimp only
    cases instNode.getString with
    | none => exact .fail _
    | some inst =>
      exact .bind (keeps_usbgImportFunctionRun hd hq hops) fun _ => .bind keeps_self fun _ => .deref _

/-- The import of the bindings makes links, and functions for them. -/
lemma keeps_usbgImportConfigBindings {root : Setting} {b : Addr} :
    Keeps (With (NodeAt q n) (Holding d a k)) (usbgImportConfigBindings M.kernel ops root b) := by
  refine .forEach fun node _ => .ite (fun _ => ?_) fun _ => .ite (fun _ => ?_) fun _ => .fail _
  · exact .bind keeps_importTarget fun _ => keeps_usbgAddConfigFunction
  · rw [usbgImportBindingGroup]
    cases node.getMember "function".toList with
    | none => exact .fail _
    | some function =>
      exact .bind (keeps_importBindingFunction hd hq hops) fun _ => .bind (.ofExcept _) fun _ =>
        keeps_usbgAddConfigFunction

end Functions

/-- The import of the strings works in the directory of the strings. -/
lemma keeps_usbgImportConfigStrings {c : Config} (hq : ¬ (c.path ++ [c.name, stringsDir]).resolve <+: q)
    {root : Setting} : Keeps (NodeAt q n) (usbgImportConfigStrings M.kernel root c) := by
  have hst : StableUpIn M.kernel (c.path ++ [c.name, stringsDir]) (NodeAt q n) := stableUpIn_nodeAt (by simp) hq
  exact .forEach fun _ _ => .bind (.require _) fun _ => .bind (.ofExcept _) fun _ => .bind (.ofExcept _) fun _ =>
    hst.keeps_usbgSetConfigString List.prefix_rfl

/-! ## The two attributes -/

/-- An attribute of a configuration. -/
inductive ConfigAttr where
  | maxPower
  | bmAttributes
deriving DecidableEq, Repr

namespace ConfigAttr

/-- The file. -/
def file : ConfigAttr → CStr
  | maxPower => "MaxPower".toList
  | bmAttributes => "bmAttributes".toList

/-- The name in a scheme. -/
def tag : ConfigAttr → CStr
  | maxPower => "bMaxPower".toList
  | bmAttributes => "bmAttributes".toList

/-- The value among those that a getter returns. -/
def value : ConfigAttr → ConfigAttrs → UInt8
  | maxPower, attrs => attrs.bMaxPower
  | bmAttributes, attrs => attrs.bmAttributes

/-- The setter. -/
def set {κ : Type} (K : Kernel κ) (c : Config) : ConfigAttr → ℤ → Io κ Unit
  | maxPower => usbgSetConfigMaxPower K c
  | bmAttributes => usbgSetConfigBmAttrs K c

/-- What is written for a value. -/
def text : ConfigAttr → ℤ → CStr
  | maxPower, v => printDec v ++ ['\n']
  | bmAttributes, v => "0x".toList ++ printHex 2 v ++ ['\n']

/-- The place of the file. -/
def place (x : ConfigAttr) (path : Path) (name : CStr) : Path := (path ++ [name, x.file]).resolve

variable {x y : ConfigAttr} {c : Config} {v : ℤ}

lemma file_ne_nil (x : ConfigAttr) : x.file ≠ [] := by cases x <;> decide

lemma file_ne_stringsDir (x : ConfigAttr) : stringsDir ≠ x.file := by cases x <;> decide

lemma set_eq (M : Machine) (x : ConfigAttr) (c : Config) (v : ℤ) :
    x.set M.kernel c v = usbgWriteBuf M.kernel c.path c.name x.file (x.text v) := by
  cases x <;> rfl

/-- The file of an attribute is not with the strings. -/
lemma place_outside_strings (hpath : path ≠ []) (name : CStr) (x : ConfigAttr) :
    ¬ Path.resolve (path ++ [name, stringsDir]) <+: x.place path name := by
  rw [place, Path.resolve_append hpath, Path.resolve_append hpath, List.prefix_append_right_inj]
  by_cases hname : name = []
  · simp [hname, x.file_ne_nil, x.file_ne_stringsDir]
  · simp [hname, x.file_ne_nil, x.file_ne_stringsDir]

/-- And it is not with the functions. -/
lemma place_outside_functions (hd : d ≠ []) (name : CStr) (x : ConfigAttr) :
    ¬ (d ++ [functionsDir]).resolve <+: x.place (d ++ [configsDir]) name := by
  rw [place, List.append_assoc, Path.resolve_append hd, Path.resolve_append hd, List.prefix_append_right_inj]
  simp

/-- A setter that succeeds leaves the text of the value in the file. -/
lemma set_ends :
    Ends (fun _ w' => NodeAt (x.place c.path c.name) (.file (x.text v)) w') (fun _ _ => True) False
      (x.set M.kernel c v w) := by
  rw [set_eq]
  refine ends_usbgWriteBuf ?_ fun _ _ _ _ => trivial
  rintro w' ⟨content, hfile⟩ ht -
  rw [NodeAt, ht, place, FileTree.get_replace, if_pos rfl, hfile]
  rfl

/-- It leaves the file of the other attribute as it is. -/
lemma set_other_ends (hxy : x.file ≠ y.file) (hw : NodeAt (x.place c.path c.name) n w) (hpath : c.path ≠ []) :
    Ends (fun _ w' => NodeAt (x.place c.path c.name) n w') (fun _ _ => True) False (y.set M.kernel c v w) := by
  have hne : x.place c.path c.name ≠ y.place c.path c.name := by
    rw [place, place, Path.resolve_append hpath, Path.resolve_append hpath]
    intro heq
    have := List.append_cancel_left heq
    by_cases hname : c.name = [] <;> simp [hname, file_ne_nil, hxy] at this
  rw [set_eq]
  refine ends_usbgWriteBuf ?_ fun _ _ _ _ => trivial
  rintro w' - ht -
  rw [NodeAt, ht, FileTree.get_replace]
  exact (if_neg hne).trans hw

/-! ### Reading -/

/-- The base in which the file is read. -/
def base : ConfigAttr → ℕ
  | maxPower => 10
  | bmAttributes => 16

/-- What is written for an `int` is read as this `int`. -/
lemma strtol_text (x : ConfigAttr) (hv : -2 ^ 31 ≤ v ∧ v < 2 ^ 31) (stale : CStr) :
    toInt (strtol x.base (ofBuffer ((x.text v).take usbgMaxStrLength ++ stale))).value = v := by
  cases x with
  | maxPower => exact strtol_written hv stale
  | bmAttributes => exact strtol_writtenHex (by omega) hv stale

/-- Reading the file of an attribute that has been set. -/
lemma usbgReadInt_text (hv : -2 ^ 31 ≤ v ∧ v < 2 ^ 31) (hw : NodeAt (x.place c.path c.name) (.file (x.text v)) w) :
    Ends (fun v' w' => v' = v ∧ w'.tree = w.tree) (fun _ _ => True) False
      (usbgReadInt M.kernel c.path c.name x.file x.base w) := by
  refine usbgReadInt_ends.mono ?_ fun _ _ _ => trivial
  rintro v' w' ⟨ht, content, stale, hfile, rfl⟩
  rw [NodeAt, place, hfile, Option.some.injEq, Node.file.injEq] at hw
  rw [hw]
  exact ⟨x.strtol_text hv stale, ht⟩

/-- The byte that holds an `int`. -/
lemma toNat_byte (v : ℤ) : ((UInt8.ofInt v).toNat : ℤ) = v % 256 := by
  rw [UInt8.ofInt]
  simp only [Int.reducePow, UInt8.toNat_ofNat']
  omega

lemma usbgGetConfigAttrs_eq (M : Machine) (c : Config) :
    usbgGetConfigAttrs M.kernel c =
      usbgReadInt M.kernel c.path c.name maxPower.file maxPower.base >>= fun p =>
        usbgReadInt M.kernel c.path c.name bmAttributes.file bmAttributes.base >>= fun b =>
          pure { bmAttributes := UInt8.ofInt b, bMaxPower := UInt8.ofInt p } :=
  rfl

/-- The getter reports what is left of the value in one byte. -/
lemma usbgGetConfigAttrs_ends (hv : -2 ^ 31 ≤ v ∧ v < 2 ^ 31)
    (hw : NodeAt (x.place c.path c.name) (.file (x.text v)) w) :
    Ends (fun attrs _ => ((x.value attrs).toNat : ℤ) = v % 256) (fun _ _ => True) False
      (usbgGetConfigAttrs M.kernel c w) := by
  have hany : ∀ {file : CStr} {base : ℕ} {w : World Fs}, Ends (fun _ w' => w'.tree = w.tree) (fun _ _ => True) False
      (usbgReadInt M.kernel c.path c.name file base w) :=
    usbgReadInt_ends.mono (fun _ _ h => h.1) fun _ _ _ => trivial
  rw [usbgGetConfigAttrs_eq]
  cases x with
  | maxPower =>
    refine Ends.bind (usbgReadInt_text hv hw) ?_
    rintro _ w₁ ⟨rfl, -⟩
    exact Ends.bind hany fun _ _ _ => toNat_byte _
  | bmAttributes =>
    refine Ends.bind hany fun _ w₁ ht => ?_
    have hw₁ : NodeAt (bmAttributes.place c.path c.name) (.file (bmAttributes.text v)) w₁ := by
      rw [NodeAt, ht]
      exact hw
    refine Ends.bind (usbgReadInt_text hv hw₁) ?_
    rintro _ w₂ ⟨rfl, -⟩
    exact toNat_byte _

/-- The export writes what the getter reports. -/
lemma usbgExportConfigPrep_ends {g : Gadget} (hv : -2 ^ 31 ≤ v ∧ v < 2 ^ 31)
    (hw : NodeAt (x.place c.path c.name) (.file (x.text v)) w) :
    Ends (fun node _ => ∃ attrs, node.getMember "attrs".toList = some attrs ∧
        attrs.getMember x.tag = some (.int (v % 256))) (fun _ _ => True) True
      (usbgExportConfigPrep M.kernel g c w) := by
  refine Ends.bind (R := fun attrs _ => attrs.getMember x.tag = some (.int (v % 256))) ?_ fun attrs w₁ hattrs => ?_
  · refine Ends.bind ((usbgGetConfigAttrs_ends hv hw).mono_undef (fun _ _ h => h) (fun _ _ h => h) False.elim) ?_
    intro attrs w₁ hvalue
    rw [← hvalue]
    cases x <;> rfl
  · refine Ends.bind (R := fun _ _ => True) (Ends.intro (fun _ _ _ => trivial) (fun _ _ _ => trivial) fun _ _ => trivial)
      fun strings w₂ _ => ?_
    refine Ends.bind (R := fun _ _ => True) (Ends.intro (fun _ _ _ => trivial) (fun _ _ _ => trivial) fun _ _ => trivial)
      fun functions w₃ _ => ?_
    exact ⟨attrs, rfl, hattrs⟩

/-! ### Importing -/

/-- A number that may be left out: what its setter keeps is kept. -/
lemma importConfigAttr_ends {I : World Fs → Prop} {attrs : Setting} {name : CStr} {set : ℤ → Io Fs Unit} (hw : I w)
    (hset : ∀ v, Ends (fun _ => I) (fun _ _ => True) False (set v w)) :
    Ends (fun _ => I) (fun _ _ => True) False (importConfigAttr attrs name set w) := by
  rw [importConfigAttr]
  cases attrs.getMember name with
  | none => exact hw
  | some node => exact Ends.ite (fun _ => trivial) fun _ => hset _

/-- The import of the attributes leaves the text of the value in the file. -/
lemma usbgImportConfigAttrs_ends {attrs : Setting} (hpath : c.path ≠ [])
    (hvalue : attrs.getMember x.tag = some (.int v)) :
    Ends (fun _ w' => NodeAt (x.place c.path c.name) (.file (x.text v)) w') (fun _ _ => True) False
      (usbgImportConfigAttrs M.kernel attrs c w) := by
  have hset : ∀ w, Ends (fun _ w' => NodeAt (x.place c.path c.name) (.file (x.text v)) w') (fun _ _ => True) False
      (importConfigAttr attrs x.tag (x.set M.kernel c) w) := by
    intro w
    rw [importConfigAttr, hvalue]
    exact set_ends
  cases x with
  | maxPower =>
    exact Ends.bind (R := fun _ _ => True)
      (importConfigAttr_ends trivial fun _ => (bmAttributes.set_ends).mono (fun _ _ _ => trivial) fun _ _ _ => trivial)
      fun _ _ _ => hset _
  | bmAttributes =>
    exact Ends.bind (hset w) fun _ _ hw₁ =>
      importConfigAttr_ends hw₁ fun _ => set_other_ends (y := maxPower) (by decide) hw₁ hpath

/-- What is done with a new configuration leaves the text of the value in its file. -/
lemma importConfigContent_ends {root attrs : Setting} (hops : OpsStable M.kernel ops) (hd : d ≠ [])
    (hg : g.InPlace d) (hattrs : root.getMember "attrs".toList = some attrs)
    (hvalue : attrs.getMember x.tag = some (.int v)) :
    Ends (fun _ t => ∀ c, t.2.config? a = some c → NodeAt (x.place c.path c.name) (.file (x.text v)) t.1)
      (fun _ _ => True) True (importConfigContent M.kernel ops root a (w, g)) := by
  rw [importConfigContent, self_bind_apply]
  refine Ends.deref_bind (fun c hc => ?_) fun _ => trivial
  have hpath : c.path = d ++ [configsDir] := hg.configs c (List.mem_of_find?_eq_some hc)
  have hne : c.path ≠ [] := by simp [hpath]
  refine Ends.bind (R := fun _ t => NodeAt (x.place c.path c.name) (.file (x.text v)) t.1 ∧ t.2 = g) ?_ ?_
  · rw [hattrs]
    refine Ends.require_bind (fun _ => ends_io ?_) fun _ => trivial
    exact (usbgImportConfigAttrs_ends hne hvalue).mono_undef (fun _ _ h => ⟨h, rfl⟩) (fun _ _ _ => trivial) fun _ => trivial
  · -- neither the strings nor the bindings touch the file
    rintro _ ⟨w₁, g⟩ ⟨hw₁, rfl⟩
    have hfuncs : ¬ (d ++ [functionsDir]).resolve <+: x.place c.path c.name := by
      rw [hpath]
      exact place_outside_functions hd c.name x
    have hstart : With (NodeAt (x.place c.path c.name) (.file (x.text v))) (Holding d a c.core) (w₁, g) :=
      ⟨hw₁, { hg with config := by rw [hc]; rfl }⟩
    refine (Keeps.ends (.bind (.whenSome fun node _ => .bind (.require _) fun _ => keeps_io ?_) fun _ =>
      .whenSome fun node _ => .bind (.require _) fun _ => keeps_usbgImportConfigBindings hd hfuncs hops) hstart).mono
      (fun _ t ht c' hc' => ?_) fun _ _ _ => trivial
    · exact keeps_usbgImportConfigStrings (place_outside_strings hne c.name x)
    · have hcore := ht.2.config
      rw [hc'] at hcore
      have hsame : c'.core = c.core := Option.some.inj hcore
      rw [show c'.path = c.path from congrArg Config.Core.path hsame,
        show c'.name = c.name from congrArg Config.Core.name hsame]
      exact ht.1

/-- So does the import of a configuration. -/
lemma usbgImportConfig_ends {root attrs : Setting} {id : ℤ} (hops : OpsStable M.kernel ops) (hd : d ≠ [])
    (hg : g.InPlace d) (hattrs : root.getMember "attrs".toList = some attrs)
    (hvalue : attrs.getMember x.tag = some (.int v)) :
    Ends (fun a t => ∀ c, t.2.config? a = some c → NodeAt (x.place c.path c.name) (.file (x.text v)) t.1)
      (fun _ _ => True) True (usbgImportConfig M.kernel ops (.parsed root) id (w, g)) := by
  have hrun : Ends (fun a t => ∀ c, t.2.config? a = some c → NodeAt (x.place c.path c.name) (.file (x.text v)) t.1)
      (fun _ _ => True) True (usbgImportConfigRun M.kernel ops root id (w, g)) := by
    rw [usbgImportConfigRun]
    cases root.getMember "name".toList with
    | none => trivial
    | some node =>
      dsimp only
      cases node.getString with
      | none => trivial
      | some name =>
        have hcreate : Ends _ _ _ (usbgCreateConfig M.kernel id (some name) none none (w, g)) :=
          usbgCreateConfig_ends (p := []) (I := fun _ => True)
            (.of_calls (fun _ _ _ _ => trivial) fun _ _ => trivial) trivial List.nil_prefix
        refine Ends.bind (hcreate.mono (fun _ _ h => h) fun _ _ _ => trivial) ?_
        rintro newc ⟨w₁, g₁⟩ ⟨-, -, -, rfl⟩
        have hg₁ := hg.insertConfig (c := newConfig g id (some name) w.next) (hg.dir_append configsDir)
        refine Ends.bind (Ends.onFail (importConfigContent_ends hops hd hg₁ hattrs hvalue) fun _ _ _ => ?_)
          fun _ _ h => h
        exact Ends.intro (fun _ _ _ => trivial) (fun _ _ _ => trivial) fun _ _ => trivial
  rw [usbgImportConfig]
  refine Ends.require_bind (fun _ => ?_) fun _ => trivial
  rw [importFile]
  exact Ends.attempt_bind hrun (fun _ _ h => h) fun _ _ _ => trivial

end ConfigAttr

/-! ## What becomes of a value -/

variable {x : ConfigAttr} {v : ℤ} {c : Config}

/-- A call has succeeded that gives the attribute of a configuration a value: the setter, or the import
of the configuration from a file with this value.  The world is the one after the call. -/
inductive AttrSet (M : Machine) (x : ConfigAttr) (v : ℤ) : Config → World Fs → Prop where
  | set {c : Config} {w w' : World Fs} (h : x.set M.kernel c v w = (.ok (), w')) : AttrSet M x v c w'
  | imported {root attrs : Setting} {id : ℤ} {w : World Fs} {g : Gadget} {a : Addr} {t : World Fs × Gadget} {c : Config}
      (hg : g.InPlace g.dir) (hattrs : root.getMember "attrs".toList = some attrs)
      (hvalue : attrs.getMember x.tag = some (.int v))
      (h : usbgImportConfig M.kernel (functionOps M.kernel) (.parsed root) id (w, g) = (.ok a, t))
      (hc : t.2.config? a = some c) : AttrSet M x v c t.1

/-- After a call that has succeeded the value is not cut: it is one that the field of the getter can
hold, or the call would have been refused; the getter reports it; and the export writes it. -/
structure AttrKept (M : Machine) (x : ConfigAttr) (v : ℤ) (c : Config) (w : World Fs) : Prop where
  held : ∃ b : UInt8, (b.toNat : ℤ) = v
  reported : ∀ attrs w', usbgGetConfigAttrs M.kernel c w = (.ok attrs, w') → ((x.value attrs).toNat : ℤ) = v
  exported : ∀ g node w', usbgExportConfigPrep M.kernel g c w = (.ok node, w') →
    ∃ attrs, node.getMember "attrs".toList = some attrs ∧ attrs.getMember x.tag = some (.int v)

/-- Either way the file has the text of the value. -/
lemma AttrSet.nodeAt (h : AttrSet M x v c w) : NodeAt (x.place c.path c.name) (.file (x.text v)) w := by
  cases h with
  | @set _ w₀ _ hset =>
    have hends : Ends _ _ _ (x.set M.kernel c v w₀) := ConfigAttr.set_ends
    rw [hset] at hends
    exact hends
  | @imported root attrs id w₀ g a t _ hg hattrs hvalue himport hc =>
    have hends : Ends _ _ _ (usbgImportConfig M.kernel (functionOps M.kernel) (.parsed root) id (w₀, g)) :=
      ConfigAttr.usbgImportConfig_ends (functionOps_stable M.kernel) (by simp [Gadget.dir]) hg hattrs hvalue
    rw [himport] at hends
    exact hends c hc

/-- After every call that sets an attribute of a configuration, by a setter or by an import, to an `int`: the
value is kept if and only if it fits into one byte. -/
theorem attrKept_iff (M : Machine) (x : ConfigAttr) (v : ℤ) (hv : -2 ^ 31 ≤ v ∧ v < 2 ^ 31) (c : Config)
    (w : World Fs) (hset : AttrSet M x v c w) : AttrKept M x v c w ↔ 0 ≤ v ∧ v ≤ 255 := by
  have hfile := hset.nodeAt
  constructor
  · rintro ⟨⟨b, rfl⟩, -, -⟩
    have := b.toNat_lt
    omega
  · intro hfits
    have hmod : v % 256 = v := Int.emod_eq_of_lt hfits.1 (by omega)
    refine ⟨⟨UInt8.ofInt v, (ConfigAttr.toNat_byte v).trans hmod⟩, fun attrs w' hget => ?_, fun g node w' hexport => ?_⟩
    · have hends : Ends _ _ _ (usbgGetConfigAttrs M.kernel c w) := ConfigAttr.usbgGetConfigAttrs_ends hv hfile
      rw [hget] at hends
      exact hends.trans hmod
    · have hends : Ends _ _ _ (usbgExportConfigPrep M.kernel g c w) := ConfigAttr.usbgExportConfigPrep_ends hv hfile
      rw [hexport, hmod] at hends
      exact hends

/-! ## An example -/

/-- A configuration with its two files. -/
def attrConfig : Config := .allocated 1 ["/c".toList] "c".toList 1

/-- The files of the configuration. -/
def attrFiles : World Fs :=
  worldOf ⟨[(["/c".toList, "c.1".toList, "MaxPower".toList], .file []),
    (["/c".toList, "c.1".toList, "bmAttributes".toList], .file [])], by decide⟩

/-- The current is set. -/
def afterMaxPower (v : ℤ) : World Fs := (usbgSetConfigMaxPower openMachine.kernel attrConfig v attrFiles).2

lemma attrSet_250 : AttrSet openMachine .maxPower 250 attrConfig (afterMaxPower 250) :=
  .set (w := attrFiles) (Prod.ext (by decide +kernel) rfl)

lemma attrSet_256 : AttrSet openMachine .maxPower 256 attrConfig (afterMaxPower 256) :=
  .set (w := attrFiles) (Prod.ext (by decide +kernel) rfl)

lemma reported_256 : (usbgGetConfigAttrs openMachine.kernel attrConfig (afterMaxPower 256)).1 =
    .ok { bmAttributes := 0, bMaxPower := 0 } := by
  decide +kernel

/-- The current may be 500 mA, in units of 2 mA. -/
theorem attrKept_250 :
    AttrKept openMachine .maxPower 250 attrConfig (afterMaxPower 250) ↔ (0 : ℤ) ≤ 250 ∧ (250 : ℤ) ≤ 255 :=
  attrKept_iff openMachine .maxPower 250 (by decide) attrConfig (afterMaxPower 250) attrSet_250

/-- The setter takes 256, which no byte holds, and the getter reports 0 then. -/
theorem attrKept_fails :
    AttrSet openMachine .maxPower 256 attrConfig (afterMaxPower 256) ∧
      ¬ AttrKept openMachine .maxPower 256 attrConfig (afterMaxPower 256) := by
  refine ⟨attrSet_256, fun hkept => ?_⟩
  have hreported := hkept.reported { bmAttributes := 0, bMaxPower := 0 } _ (Prod.ext reported_256 rfl)
  exact absurd hreported (by decide)

end Libusbgx
