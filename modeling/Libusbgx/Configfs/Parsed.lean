import Libusbgx.Configfs.Calls
import Libusbgx.Names
import Mathlib.Data.List.Forall2

/-!
# What `usbg_init` finds in a tree

The objects that `usbg_init` builds, described by the tree it has read: every list of objects
follows the sorted listing of a directory.  When it returns an error, the kernel has refused to
read something, or the tree was not readable.
-/

namespace Libusbgx

open Prog Machine

/-! ## The description -/

/-- What the library has of the text of a link: what fits in its buffer. -/
def linkText (text : CStr) : CStr := ofBuffer (text.take (usbgMaxPathLength - 1))

/-- `part` is the last part of the link at `p`, after the last slash. -/
def LastPart (T : Tree) (p : Path) (part : CStr) : Prop :=
  ∃ text target pre, T.get p.resolve = some (.link text target) ∧
    cutLast '/' (linkText text) = some (pre, part)

/-- The link at `p` has no slash that the library could look behind. -/
def Slashless (T : Tree) (p : Path) : Prop :=
  ∃ text target, T.get p.resolve = some (.link text target) ∧ '/' ∉ linkText text

/-- A link in the directory of a configuration is one. -/
def BindingSlashless (T : Tree) (p : Path) : Prop :=
  ∃ link ∈ listing T p.resolve bindingsSelect, Slashless T (p ++ [link])

/-- The same for a configuration in the directory: what is read is the directory with the name the library
has made of its label and number. -/
def ConfigsSlashless (T : Tree) (p : Path) : Prop :=
  ∃ name ∈ listing T p.resolve fileSelect, ∃ label id, usbgSplitConfigLabelId name = .ok (label, id) ∧ id ≠ 0 ∧
    BindingSlashless T (p ++ [configName label id])

/-- The first link in the OS descriptor directory is one. -/
def OsDescSlashless (T : Tree) (p : Path) : Prop :=
  ∃ link ∈ (listing T p.resolve bindingsSelect).head?, Slashless T (p ++ [link])

/-- The same for one of the links of a gadget. -/
def GadgetSlashless (T : Tree) (p : Path) : Prop :=
  ConfigsSlashless T (p ++ [configsDir]) ∨ OsDescSlashless T (p ++ [osDescDir])

/-- Of a link that `usbg_init` follows, the library takes the text behind the last slash, and there is none. -/
def LinkWithoutSlash (T : Tree) (cfg : CStr) : Prop :=
  ∃ name ∈ listing T (Path.resolve [cfg, gadgetsDir]) fileSelect, GadgetSlashless T [cfg, gadgetsDir, name]

/-- The addresses are different, and were handed out between `lo` and `hi`. -/
structure Fresh (lo hi : Addr) (as : List Addr) : Prop where
  nodup : as.Nodup
  range : ∀ a ∈ as, lo ≤ a ∧ a < hi

/-- The name of the function is made of its type and its instance. -/
structure Func.Named (f : Func) : Prop where
  parts : f.name = functionName f.type f.inst
  inst : f.inst ≠ []

/-- A function that was read from the directory `name` in `fpath`. -/
structure ParsedFunction (fpath : Path) (name : CStr) (f : Func) : Prop where
  path : f.path = fpath
  name_eq : f.name = name
  named : f.Named

/-- A binding that was read from the link `name` in the directory `p` of a configuration. -/
structure ParsedBinding (T : Tree) (fs : List Func) (p : Path) (name : CStr) (b : Binding) :
    Prop where
  path : b.path = p
  name_eq : b.name = name
  fits : (p ++ [name]).Fits
  target : ∃ f ∈ fs, f.addr = b.target ∧ LastPart T (p ++ [name]) f.name

/-- A configuration that was read from the directory `name` in `cpath`. -/
structure ParsedConfig (T : Tree) (cpath : Path) (fs : List Func) (name : CStr) (c : Config) :
    Prop where
  path : c.path = cpath
  split : usbgSplitConfigLabelId name = .ok (c.label, c.id)
  id_ne : c.id ≠ 0
  name_eq : c.name = configName c.label c.id
  fits : c.dir.Fits
  dir : T.IsDir c.dir.resolve
  bindings : List.Forall₂ (ParsedBinding T fs c.dir) (listing T c.dir.resolve bindingsSelect)
    c.bindings

/-- The name of a directory of a configuration that is not passed over. -/
def Numbered (name : CStr) : Prop :=
  ∃ label id, usbgSplitConfigLabelId name = .ok (label, id) ∧ id ≠ 0

instance (name : CStr) : Decidable (Numbered name) :=
  decidable_of_iff (((usbgSplitConfigLabelId name).toOption.any fun p => p.2 ≠ 0) = true) <| by
    cases h : usbgSplitConfigLabelId name with
    | error e => simp [Numbered, h, Except.toOption]
    | ok p =>
      obtain ⟨label, id⟩ := p
      simp [Numbered, h, Except.toOption]

/-- The configurations in the directory `cpath`: those with the number 0 are passed over. -/
def ParsedConfigs (T : Tree) (cpath : Path) (fs : List Func) (names : List CStr)
    (cs : List Config) : Prop :=
  List.Forall₂ (ParsedConfig T cpath fs) (names.filter (Numbered ·)) cs

/-- The configuration with the OS descriptors, by the first link in the directory `opath`. -/
def ParsedOsDesc (T : Tree) (opath : Path) (cs : List Config) (osDesc : Option Addr) : Prop :=
  match listing T opath.resolve bindingsSelect with
  | [] => osDesc = none
  | name :: _ => ∃ part label id, LastPart T (opath ++ [name]) part ∧
    usbgSplitConfigLabelId part = .ok (label, id) ∧
    (id = 0 ∧ osDesc = none ∨ ∃ c ∈ cs, c.label = label ∧ c.id = id ∧ osDesc = some c.addr)

/-- A gadget that was read from its directory, while the addresses from `lo` to `hi` were handed
out. -/
structure ParsedGadget (T : Tree) (lo hi : Addr) (g : Gadget) : Prop where
  fits : (g.path ++ [g.name, functionsDir]).Fits
  functions : List.Forall₂ (ParsedFunction (g.path ++ [g.name, functionsDir]))
    (listing T (g.path ++ [g.name, functionsDir]).resolve fileSelect) g.functions
  functionAddrs : Fresh lo hi (g.functions.map Func.addr)
  configs : ParsedConfigs T (g.path ++ [g.name, configsDir]) g.functions
    (listing T (g.path ++ [g.name, configsDir]).resolve fileSelect) g.configs
  configAddrs : Fresh lo hi (g.configs.map Config.addr)
  osDesc : ParsedOsDesc T (g.path ++ [g.name, osDescDir]) g.configs g.osDescBinding
  osDescFits : ∀ name ∈ (listing T (g.path ++ [g.name, osDescDir]).resolve bindingsSelect).head?,
    (g.path ++ [g.name, osDescDir] ++ [name]).Fits

/-- The gadgets of a state were read from the directory of the state. -/
structure ParsedState (T : Tree) (lo hi : Addr) (s : State) : Prop where
  gadgets : List.Forall₂ (fun name g => g.name = name ∧ g.path = s.path ∧ ParsedGadget T lo hi g)
    (listing T s.path.resolve fileSelect) s.gadgets
  gadgetAddrs : Fresh lo hi (s.gadgets.map Gadget.addr)

/-! ## What can be read -/

/-- The calls that only read. -/
def Syscall.IsRead : Syscall → Prop
  | .opendir _ | .scandir _ | .readlink _ | .read _ => True
  | _ => False

/-- The kernel refuses no reads. -/
def Machine.Reads (M : Machine) : Prop := ∀ c : Syscall, c.IsRead → M.Grants c

/-- The directory with the functions. -/
structure FunctionsReadable (T : Tree) (p : Path) : Prop where
  fits : p.Fits
  dir : T.IsDir p.resolve
  names : ∀ name ∈ listing T p.resolve fileSelect,
    ∃ ti, usbgSplitFunctionInstanceType name = .ok ti

/-- The directory of a configuration, with links to some of the functions `fs`. -/
structure BindingsReadable (T : Tree) (fs : List Func) (p : Path) : Prop where
  fits : p.Fits
  dir : T.IsDir p.resolve
  links : ∀ name ∈ listing T p.resolve bindingsSelect,
    (p ++ [name]).Fits ∧ ∃ f ∈ fs, LastPart T (p ++ [name]) f.name

/-- The directory with the configurations. -/
structure ConfigsReadable (T : Tree) (fs : List Func) (p : Path) : Prop where
  fits : p.Fits
  dir : T.IsDir p.resolve
  names : ∀ name ∈ listing T p.resolve fileSelect, ∃ label id,
    usbgSplitConfigLabelId name = .ok (label, id) ∧
    (id ≠ 0 → BindingsReadable T fs (p ++ [configName label id]))

/-- The OS descriptor directory, with a link to one of the configurations `cs`. -/
structure OsDescReadable (T : Tree) (cs : List Config) (p : Path) : Prop where
  fits : p.Fits
  dir : T.IsDir p.resolve
  link : ∀ name ∈ (listing T p.resolve bindingsSelect).head?, (p ++ [name]).Fits ∧
    ∃ part label id, LastPart T (p ++ [name]) part ∧
    usbgSplitConfigLabelId part = .ok (label, id) ∧
    (id ≠ 0 → ∃ c ∈ cs, c.label = label ∧ c.id = id)

/-- The directory `p` of a gadget. -/
structure GadgetReadable (T : Tree) (p : Path) : Prop where
  functions : FunctionsReadable T (p ++ [functionsDir])
  configs : ∀ fs, List.Forall₂ (ParsedFunction (p ++ [functionsDir]))
    (listing T (p ++ [functionsDir]).resolve fileSelect) fs → ConfigsReadable T fs (p ++ [configsDir])
  osDesc : ∀ fs cs, ParsedConfigs T (p ++ [configsDir]) fs
    (listing T (p ++ [configsDir]).resolve fileSelect) cs → OsDescReadable T cs (p ++ [osDescDir])
  udc : (p ++ [udcFile]).Fits ∧ ∃ content, T.get (p ++ [udcFile]).resolve = some (.file content)

/-! ## Addresses -/

variable {M : Machine} {w : World Fs} {T : Tree}

namespace Fresh

lemma nil {lo hi : Addr} : Fresh lo hi [] := ⟨List.nodup_nil, by simp⟩

/-- The next address. -/
lemma snoc {lo hi a hi' : Addr} {as : List Addr} (h : Fresh lo hi as) (hlo : lo ≤ a) (ha : hi ≤ a)
    (hhi : a < hi') : Fresh lo hi' (as ++ [a]) where
  nodup := by
    refine List.nodup_append.mpr ⟨h.nodup, List.nodup_singleton _, fun b hb c hc => ?_⟩
    rw [List.mem_singleton.mp hc]
    exact ne_of_lt (lt_of_lt_of_le (h.range b hb).2 ha)
  range b hb := by
    rcases List.mem_append.mp hb with hb | hb
    · exact ⟨(h.range b hb).1, lt_trans (lt_of_lt_of_le (h.range b hb).2 ha) hhi⟩
    · rw [List.mem_singleton.mp hb]
      exact ⟨hlo, hhi⟩

lemma mono {lo lo' hi hi' : Addr} {as : List Addr} (h : Fresh lo hi as) (hlo : lo' ≤ lo)
    (hhi : hi ≤ hi') : Fresh lo' hi' as :=
  ⟨h.nodup, fun a ha => ⟨hlo.trans (h.range a ha).1, lt_of_lt_of_le (h.range a ha).2 hhi⟩⟩

end Fresh

lemma ParsedGadget.mono {lo lo' hi hi' : Addr} {g : Gadget} (h : ParsedGadget T lo hi g)
    (hlo : lo' ≤ lo) (hhi : hi ≤ hi') : ParsedGadget T lo' hi' g :=
  { h with
    functionAddrs := h.functionAddrs.mono hlo hhi
    configAddrs := h.configAddrs.mono hlo hhi }

lemma ParsedState.mono {lo lo' hi hi' : Addr} {s : State} (h : ParsedState T lo hi s)
    (hlo : lo' ≤ lo) (hhi : hi ≤ hi') : ParsedState T lo' hi' s where
  gadgets := h.gadgets.imp fun _ _ hg => ⟨hg.1, hg.2.1, hg.2.2.mono hlo hhi⟩
  gadgetAddrs := h.gadgetAddrs.mono hlo hhi

/-! ## Reading -/

/-- The library reads on: the tree stays as it is, and addresses go up. -/
def ReadOn (w w' : World Fs) : Prop := w'.tree = w.tree ∧ w.next ≤ w'.next

lemma ReadOn.refl (w : World Fs) : ReadOn w w := ⟨rfl, le_refl _⟩

lemma ReadOn.trans {w w' w'' : World Fs} (h : ReadOn w w') (h' : ReadOn w' w'') : ReadOn w w'' :=
  ⟨h'.1.trans h.1, h.2.trans h'.2⟩

/-- A listing, when a directory is read on the way. -/
lemma ends_scandir_readOn {p : Path} {sel : Dirent → Bool} {U : Prop} :
    Ends (fun names w' => ReadOn w w' ∧ names = listing w.tree p.resolve sel)
      (fun _ _ => M.Reads → ¬ w.tree.IsDir p.resolve) U (scandir M.kernel p sel w) :=
  ends_scandir (fun _ ht hn _ => ⟨⟨ht, le_of_eq hn.symm⟩, rfl⟩)
    fun _ _ hwhy _ _ hreads => (hwhy (hreads _ trivial)).1

/-- The last part of a link is what the code goes on with. -/
lemma ends_lastPart {α : Type} {p : Path} {k : CStr → Io Fs α} {Q : α → World Fs → Prop}
    {E : UsbgError → World Fs → Prop} {U : Prop}
    (hok : ∀ part w', ReadOn w w' → LastPart w.tree p part → Ends Q E U (k part w'))
    (hfail : ∀ e w', (M.Reads → ∀ part, ¬ LastPart w.tree p part) → E e w')
    (hundef : Slashless w.tree p → U) :
    Ends Q E U ((readlink M.kernel p >>= fun t => lastPart t >>= k) w) := by
  rcases M.call_cases (.readlink p) w with ⟨e, w', hw, hwhy, ht, hn⟩ | ⟨text, w', hw, ht, hn⟩
  · have : readlink M.kernel p w = (.fail e, w') := bind_fail hw
    refine Ends.of_eq (bind_fail this) (hfail e w' fun hreads part hpart => ?_)
    obtain ⟨e, he, -⟩ := hwhy (hreads _ trivial)
    obtain ⟨text, target, pre, hget, -⟩ := hpart
    rw [exec, readLink, hget] at he
    cases he
  · have : readlink M.kernel p w = (.ok (linkText text), w') := bind_ok hw
    refine Ends.of_eq (bind_ok this) ?_
    obtain ⟨hlink, hsame⟩ := exec_readlink.mp ht
    obtain ⟨target, hget⟩ := readLink_eq_ok.mp hlink
    cases hcut : cutLast '/' (linkText text) with
    | none =>
      rw [lastPart, hcut]
      exact hundef ⟨text, target, hget, cutLast_eq_none.mp hcut⟩
    | some parts =>
      rw [lastPart, hcut]
      exact hok parts.2 w' ⟨hsame, le_of_eq hn.symm⟩ ⟨text, target, parts.1, hget, hcut⟩

lemma LastPart.unique {p : Path} {part part' : CStr} (h : LastPart T p part)
    (h' : LastPart T p part') : part = part' := by
  obtain ⟨text, target, pre, hget, hcut⟩ := h
  obtain ⟨text', target', pre', hget', hcut'⟩ := h'
  rw [hget, Option.some.injEq, Node.link.injEq] at hget'
  rw [← hget'.1, hcut] at hcut'
  exact (Prod.mk.inj (Option.some.inj hcut')).2

/-! ### Functions -/

lemma Func.Named.split {f : Func} (h : f.Named) :
    usbgSplitFunctionInstanceType f.name = .ok (f.type, f.inst) := by
  rw [h.parts]
  exact usbgSplitFunctionInstanceType_functionName _ h.inst

/-- `usbg_parse_functions` -/
lemma usbgParseFunctions_ends {path : Path} {g : Gadget} (hg : g.functions = []) :
    Ends (fun g' w' => (ReadOn w w' ∧ (path ++ [g.name, functionsDir]).Fits) ∧ ∃ fs, g' = { g with functions := fs } ∧
        List.Forall₂ (ParsedFunction (path ++ [g.name, functionsDir]))
          (listing w.tree (path ++ [g.name, functionsDir]).resolve fileSelect) fs ∧
        Fresh w.next w'.next (fs.map Func.addr))
      (fun _ _ => M.Reads → ¬ FunctionsReadable w.tree (path ++ [g.name, functionsDir]))
      False (usbgParseFunctions M.kernel path g w) := by
  rw [usbgParseFunctions]
  refine Ends.require_bind (fun hfits => ?_) fun hfits _ hr => hfits hr.fits
  refine Ends.bind (ends_scandir_readOn.mono (fun _ _ h => h) fun _ _ hwhy hreads hr =>
    hwhy hreads hr.dir) ?_
  rintro _ w₁ ⟨hw₁, rfl⟩
  refine (Ends.foldlM (fun done g' w' => ReadOn w w' ∧ ∃ fs, g' = { g with functions := fs } ∧
    List.Forall₂ (ParsedFunction (path ++ [g.name, functionsDir])) done fs ∧
    Fresh w.next w'.next (fs.map Func.addr)) (fun done name g' w' hpre h => ?_) ?_).mono
    (fun _ _ h => ⟨⟨h.1, hfits⟩, h.2⟩) fun _ _ h => h
  · obtain ⟨hw', fs, rfl, hfs, hfresh⟩ := h
    cases hsplit : usbgSplitFunctionInstanceType name with
    | error e =>
      intro _ hr
      obtain ⟨ti, hti⟩ := hr.names name (hpre.subset (by simp))
      rw [hsplit] at hti
      cases hti
    | ok ti =>
      obtain ⟨type, inst⟩ := ti
      obtain ⟨hname, hinst⟩ := usbgSplitFunctionInstanceType_eq_ok hsplit
      refine ⟨⟨hw'.1, Nat.le_succ_of_le hw'.2⟩, _, rfl, ?_, ?_⟩
      · exact List.rel_append hfs (.cons ⟨rfl, hname.symm, rfl, hinst⟩ .nil)
      · rw [List.map_append]
        exact hfresh.snoc hw'.2 (le_refl _) (Nat.lt_succ_self _)
  · exact ⟨hw₁, [], by rw [← hg], .nil, .nil⟩

/-! ### Bindings -/

/-- A function whose name is at hand is found. -/
lemma usbgGetFunction_isSome {g : Gadget} {f : Func} (hf : f ∈ g.functions) :
    usbgGetFunction g f.type f.inst ≠ none := by
  rw [usbgGetFunction, Ne, List.find?_eq_none]
  intro h
  exact h f hf (by simp)

lemma usbgGetFunction_eq_some {g : Gadget} {type : FunctionType} {inst : CStr} {f : Func}
    (h : usbgGetFunction g type inst = some f) : f ∈ g.functions ∧ f.type = type ∧ f.inst = inst := by
  refine ⟨List.mem_of_find?_eq_some h, ?_⟩
  simpa using List.find?_some h

/-- `usbg_parse_config_binding` -/
lemma usbgParseConfigBinding_ends {g : Gadget} {c : Config} (name : CStr)
    (hfs : ∀ f ∈ g.functions, f.Named) (hfits : (c.dir ++ [name]).Fits) :
    Ends (fun c' w' => ReadOn w w' ∧ ∃ b, c' = { c with bindings := c.bindings ++ [b] } ∧
        ParsedBinding w.tree g.functions c.dir name b)
      (fun _ _ => M.Reads → ∀ f ∈ g.functions, ¬ LastPart w.tree (c.dir ++ [name]) f.name)
      (Slashless w.tree (c.dir ++ [name])) (usbgParseConfigBinding M.kernel g c name w) := by
  have hdir : c.dir ++ [name] = c.path ++ [c.name, name] := by simp [Config.dir]
  rw [usbgParseConfigBinding, hdir]
  refine ends_lastPart (fun part w₁ hw₁ hpart => ?_)
    (fun e w' hwhy hreads f _ hf => hwhy hreads _ hf) id
  cases hsplit : usbgSplitFunctionInstanceType part with
  | error e =>
    intro _ f hf hlast
    obtain rfl := hpart.unique hlast
    rw [(hfs f hf).split] at hsplit
    cases hsplit
  | ok ti =>
    obtain ⟨type, inst⟩ := ti
    rw [ofExcept_ok, pure_bind]
    dsimp only
    cases hget : usbgGetFunction g type inst with
    | none =>
      intro _ f hf hlast
      obtain rfl := hpart.unique hlast
      rw [(hfs f hf).split] at hsplit
      obtain ⟨rfl, rfl⟩ := Prod.mk.inj (Except.ok.inj hsplit)
      exact usbgGetFunction_isSome hf hget
    | some f =>
      obtain ⟨hf, rfl, rfl⟩ := usbgGetFunction_eq_some hget
      refine ⟨hw₁, _, rfl, rfl, rfl, hfits, f, hf, rfl, ?_⟩
      rw [hdir, (hfs f hf).parts, ← (usbgSplitFunctionInstanceType_eq_ok hsplit).1]
      exact hpart

/-- `usbg_parse_config_bindings` -/
lemma usbgParseConfigBindings_ends {g : Gadget} {c : Config} (hfs : ∀ f ∈ g.functions, f.Named)
    (hc : c.bindings = []) :
    Ends (fun c' w' => ReadOn w w' ∧ (c.dir.Fits ∧ w.tree.IsDir c.dir.resolve) ∧
        ∃ bs, c' = { c with bindings := bs } ∧
        List.Forall₂ (ParsedBinding w.tree g.functions c.dir)
          (listing w.tree c.dir.resolve bindingsSelect) bs)
      (fun _ _ => M.Reads → ¬ BindingsReadable w.tree g.functions c.dir)
      (BindingSlashless w.tree c.dir) (usbgParseConfigBindings M.kernel g c w) := by
  rw [usbgParseConfigBindings]
  refine Ends.require_bind (fun hdirFits => ?_) fun hfits _ hr => hfits hr.fits
  refine Ends.bind (R := fun names w' => (ReadOn w w' ∧ w.tree.IsDir c.dir.resolve) ∧
    names = listing w.tree c.dir.resolve bindingsSelect)
    (ends_scandir (fun _ ht hn hdir => ⟨⟨⟨ht, le_of_eq hn.symm⟩, hdir⟩, rfl⟩)
      fun _ _ hwhy _ _ hreads hr => (hwhy (hreads _ trivial)).1 hr.dir) ?_
  rintro _ w₁ ⟨⟨hw₁, hdir⟩, rfl⟩
  -- the loop has read the bindings of the names that are done
  refine Ends.mono (Ends.foldlM (fun done c' w' => ReadOn w w' ∧
    ∃ bs, c' = { c with bindings := bs } ∧
    List.Forall₂ (ParsedBinding w.tree g.functions c.dir) done bs)
    (fun done name c' w' hpre h => ?_) ?_) (fun _ _ h => ⟨h.1, ⟨hdirFits, hdir⟩, h.2⟩) fun _ _ h => h
  · obtain ⟨hw', bs, rfl, hbs⟩ := h
    have hmem : name ∈ listing w.tree c.dir.resolve bindingsSelect := hpre.subset (by simp)
    have happ : c.path ++ [c.name, name] = c.dir ++ [name] := by simp [Config.dir]
    refine Ends.require_bind (fun hfits => ?_) fun hfits _ hr => hfits ?_
    · have h := usbgParseConfigBinding_ends (M := M) (w := w') (g := g)
        (c := { c with bindings := bs }) name hfs (happ ▸ hfits)
      rw [hw'.1] at h
      refine h.mono_undef ?_ ?_ fun hno => ⟨name, hmem, hno⟩
      · rintro _ w'' ⟨hw'', b, rfl, hb⟩
        exact ⟨hw'.trans hw'', _, rfl, List.rel_append hbs (.cons hb .nil)⟩
      · intro _ _ hwhy hreads hr
        obtain ⟨-, f, hf, hlast⟩ := hr.links name hmem
        exact hwhy hreads f hf hlast
    · show (c.path ++ [c.name, name]).Fits
      rw [happ]
      exact (hr.links name hmem).1
  · exact ⟨hw₁, [], by rw [← hc], .nil⟩

/-! ### Configurations -/

/-- `usbg_parse_config` -/
lemma usbgParseConfig_ends (path : Path) (name : CStr) {g : Gadget}
    (hfs : ∀ f ∈ g.functions, f.Named) :
    Ends (fun g' w' => ReadOn w w' ∧ (¬ Numbered name ∧ g' = g ∨ Numbered name ∧
        ∃ c, g' = { g with configs := g.configs ++ [c] } ∧
          ParsedConfig w.tree path g.functions name c ∧ w.next ≤ c.addr ∧ c.addr < w'.next))
      (fun _ _ => M.Reads → ¬ ∃ label id, usbgSplitConfigLabelId name = .ok (label, id) ∧
        (id ≠ 0 → BindingsReadable w.tree g.functions (path ++ [configName label id])))
      (∃ label id, usbgSplitConfigLabelId name = .ok (label, id) ∧ id ≠ 0 ∧
        BindingSlashless w.tree (path ++ [configName label id])) (usbgParseConfig M.kernel path name g w) := by
  rw [usbgParseConfig]
  cases hsplit : usbgSplitConfigLabelId name with
  | error e =>
    rintro _ ⟨label, id, h, -⟩
    cases h
  | ok p =>
    obtain ⟨label, id⟩ := p
    rw [ofExcept_ok, pure_bind]
    dsimp only
    by_cases hid : id = 0
    · rw [if_pos hid]
      refine ⟨.refl w, .inl ⟨?_, rfl⟩⟩
      rintro ⟨label', id', h, hne⟩
      rw [hsplit] at h
      obtain ⟨rfl, rfl⟩ := Prod.mk.inj (Except.ok.inj h)
      exact hne hid
    · rw [if_neg hid]
      have halloc : usbgAllocateConfig path label id w =
        (.ok (.allocated w.next path label id), { w with next := w.next + 1 }) := rfl
      refine Ends.of_eq (bind_ok halloc) ?_
      refine Ends.bind ((usbgParseConfigBindings_ends hfs rfl).mono_undef (fun _ _ h => h) ?_
        fun hno => ⟨label, id, rfl, hid, hno⟩) ?_
      · rintro _ _ hwhy hreads ⟨label', id', h, hr⟩
        obtain ⟨rfl, rfl⟩ := Prod.mk.inj (Except.ok.inj h)
        exact hwhy hreads (hr hid)
      · rintro _ w' ⟨hw', hdir, bs, rfl, hbs⟩
        refine ⟨⟨hw'.1, le_trans (Nat.le_succ _) hw'.2⟩, .inr ⟨⟨label, id, hsplit, hid⟩, _, rfl, ?_⟩⟩
        exact ⟨⟨rfl, hsplit, hid, rfl, hdir.1, hdir.2, hbs⟩, le_refl _, hw'.2⟩

/-- `usbg_parse_configs` -/
lemma usbgParseConfigs_ends (path : Path) {g : Gadget} (hfs : ∀ f ∈ g.functions, f.Named)
    (hg : g.configs = []) :
    Ends (fun g' w' => ReadOn w w' ∧ ∃ cs, g' = { g with configs := cs } ∧
        ParsedConfigs w.tree (path ++ [g.name, configsDir]) g.functions
          (listing w.tree (path ++ [g.name, configsDir]).resolve fileSelect) cs ∧
        Fresh w.next w'.next (cs.map Config.addr))
      (fun _ _ => M.Reads → ¬ ConfigsReadable w.tree g.functions (path ++ [g.name, configsDir]))
      (ConfigsSlashless w.tree (path ++ [g.name, configsDir])) (usbgParseConfigs M.kernel path g w) := by
  rw [usbgParseConfigs]
  refine Ends.require_bind (fun _ => ?_) fun hfits _ hr => hfits hr.fits
  refine Ends.bind (ends_scandir_readOn.mono (fun _ _ h => h) fun _ _ hwhy hreads hr =>
    hwhy hreads hr.dir) ?_
  rintro _ w₁ ⟨hw₁, rfl⟩
  refine Ends.foldlM (fun done g' w' => ReadOn w w' ∧ ∃ cs, g' = { g with configs := cs } ∧
    ParsedConfigs w.tree (path ++ [g.name, configsDir]) g.functions done cs ∧
    Fresh w.next w'.next (cs.map Config.addr)) (fun done name g' w' hpre h => ?_) ?_
  · obtain ⟨hw', cs, rfl, hcs, hfresh⟩ := h
    have h := usbgParseConfig_ends (M := M) (w := w') (g := { g with configs := cs })
      (path ++ [g.name, configsDir]) name hfs
    rw [hw'.1] at h
    refine h.mono_undef ?_ (fun _ _ hwhy hreads hr => hwhy hreads (hr.names name (hpre.subset (by simp))))
      fun hno => ⟨name, hpre.subset (by simp), hno⟩
    rintro _ w'' ⟨hw'', ⟨hnum, rfl⟩ | ⟨hnum, c, rfl, hc, hlo, hhi⟩⟩
    · refine ⟨hw'.trans hw'', cs, rfl, ?_, hfresh.mono (le_refl _) hw''.2⟩
      rw [ParsedConfigs, List.filter_append, List.filter_cons_of_neg (by simpa using hnum),
        List.filter_nil, List.append_nil]
      exact hcs
    · refine ⟨hw'.trans hw'', _, rfl, ?_, ?_⟩
      · rw [ParsedConfigs, List.filter_append, List.filter_cons_of_pos (by simpa using hnum)]
        exact List.rel_append hcs (.cons hc .nil)
      · rw [List.map_append]
        exact hfresh.snoc (hw'.2.trans hlo) hlo hhi
  · exact ⟨hw₁, [], by rw [← hg], .nil, .nil⟩

/-! ### The OS descriptor link -/

lemma usbgGetConfig_eq_some {g : Gadget} {id : ℤ} {label : CStr} {c : Config}
    (h : usbgGetConfig g id (some label) = some c) : c ∈ g.configs ∧ c.label = label ∧ c.id = id := by
  refine ⟨List.mem_of_find?_eq_some h, ?_⟩
  have := List.find?_some h
  simp only [reduceCtorEq, false_or, Option.some.injEq, decide_eq_true_eq] at this
  exact ⟨this.2.symm, this.1⟩

/-- `usbg_parse_gadget_os_desc_binding` -/
lemma usbgParseGadgetOsDescBinding_ends {g : Gadget} (hg : g.osDescBinding = none) :
    Ends (fun g' w' => ReadOn w w' ∧ ∃ a, g' = { g with osDescBinding := a } ∧
        ParsedOsDesc w.tree (g.path ++ [g.name, osDescDir]) g.configs a ∧
        ∀ name ∈ (listing w.tree (g.path ++ [g.name, osDescDir]).resolve bindingsSelect).head?,
          (g.path ++ [g.name, osDescDir] ++ [name]).Fits)
      (fun _ _ => M.Reads → ¬ OsDescReadable w.tree g.configs (g.path ++ [g.name, osDescDir]))
      (OsDescSlashless w.tree (g.path ++ [g.name, osDescDir])) (usbgParseGadgetOsDescBinding M.kernel g w) := by
  have hsame : g = { g with osDescBinding := none } := by rw [← hg]
  rw [usbgParseGadgetOsDescBinding]
  refine Ends.require_bind (fun _ => ?_) fun hfits _ hr => hfits hr.fits
  refine Ends.bind (ends_scandir_readOn.mono (fun _ _ h => h) fun _ _ hwhy hreads hr =>
    hwhy hreads hr.dir) ?_
  rintro _ w₁ ⟨hw₁, rfl⟩
  -- only the first link is followed, whatever else the directory holds
  cases hl : listing w.tree (g.path ++ [g.name, osDescDir]).resolve bindingsSelect with
  | nil =>
    refine ⟨hw₁, none, hsame, ?_, fun _ h => (Option.not_mem_none _ h).elim⟩
    rw [ParsedOsDesc, hl]
  | cons name names =>
    have hlink := fun hr : OsDescReadable w.tree g.configs (g.path ++ [g.name, osDescDir]) =>
      hr.link name (by rw [hl]; rfl)
    refine Ends.require_bind (fun hfits => ?_) fun hfits _ hr => hfits (hlink hr).1
    have hhead : ∀ x ∈ (name :: names).head?, (g.path ++ [g.name, osDescDir] ++ [x]).Fits := by
      rintro x hx
      obtain rfl := Option.some.inj hx
      exact hfits
    refine ends_lastPart (fun part w₂ hw₂ hpart => ?_) (fun e w' hwhy hreads hr => ?_) ?_
    · rw [hw₁.1] at hpart
      have hreadable : OsDescReadable w.tree g.configs (g.path ++ [g.name, osDescDir]) →
          ∃ label id, usbgSplitConfigLabelId part = .ok (label, id) ∧
            (id ≠ 0 → ∃ c ∈ g.configs, c.label = label ∧ c.id = id) := by
        intro hr
        obtain ⟨-, part', label, id, hpart', hsplit, hid⟩ := hlink hr
        exact ⟨label, id, by rwa [hpart.unique hpart'], hid⟩
      cases hsplit : usbgSplitConfigLabelId part with
      | error e =>
        intro _ hr
        obtain ⟨label, id, h, -⟩ := hreadable hr
        rw [hsplit] at h
        cases h
      | ok p =>
        obtain ⟨label, id⟩ := p
        rw [ofExcept_ok, pure_bind]
        dsimp only
        -- a link to a directory with the number 0 is passed over, since no configuration has that number
        by_cases hid : id = 0
        · rw [if_pos hid]
          refine ⟨hw₁.trans hw₂, none, hsame, ?_, hhead⟩
          rw [ParsedOsDesc, hl]
          exact ⟨part, label, id, hpart, hsplit, .inl ⟨hid, rfl⟩⟩
        · rw [if_neg hid]
          cases hget : usbgGetConfig g id (some label) with
          | none =>
            intro _ hr
            obtain ⟨label', id', h, hconf⟩ := hreadable hr
            rw [hsplit] at h
            obtain ⟨rfl, rfl⟩ := Prod.mk.inj (Except.ok.inj h)
            obtain ⟨c, hc, rfl, rfl⟩ := hconf hid
            rw [usbgGetConfig, List.find?_eq_none] at hget
            exact hget c hc (by simp)
          | some c =>
            obtain ⟨hc, hcl, hci⟩ := usbgGetConfig_eq_some hget
            refine ⟨hw₁.trans hw₂, some c.addr, rfl, ?_, hhead⟩
            rw [ParsedOsDesc, hl]
            exact ⟨part, label, id, hpart, hsplit, .inr ⟨c, hc, hcl, hci, rfl⟩⟩
    · obtain ⟨-, part, -, -, hpart, -⟩ := hlink hr
      rw [hw₁.1] at hwhy
      exact hwhy hreads part hpart
    · rw [hw₁.1]
      exact fun hno => ⟨name, by rw [hl]; rfl, hno⟩

/-! ### Gadgets -/

lemma named_of_parsed {fpath : Path} {names : List CStr} {fs : List Func}
    (h : List.Forall₂ (ParsedFunction fpath) names fs) : ∀ f ∈ fs, f.Named := by
  induction h with
  | nil => simp
  | cons hf _ ih =>
    intro f hmem
    rcases List.mem_cons.mp hmem with rfl | hmem
    · exact hf.named
    · exact ih f hmem

/-- The directories below that of a gadget. -/
lemma parseGadgetContent_ends {g : Gadget} (hf : g.functions = []) (hc : g.configs = [])
    (ho : g.osDescBinding = none) :
    Ends (fun g' w' => ReadOn w w' ∧ g'.core = g.core ∧ ParsedGadget w.tree w.next w'.next g')
      (fun _ _ => M.Reads → ¬ GadgetReadable w.tree g.dir) (GadgetSlashless w.tree g.dir)
      (parseGadgetContent M.kernel g w) := by
  have hdir : ∀ sub, g.dir ++ [sub] = g.path ++ [g.name, sub] := fun sub => by simp [Gadget.dir]
  rw [parseGadgetContent]
  refine Ends.bind ((usbgParseFunctions_ends hf).mono_undef (fun _ _ h => h) (fun _ _ hwhy hreads hr =>
    hwhy hreads (hdir _ ▸ hr.functions)) fun h => h.elim) ?_
  rintro _ w₁ ⟨⟨hw₁, hfits⟩, fs, rfl, hfs, hffs⟩
  have hconfigs := usbgParseConfigs_ends (M := M) (w := w₁) (g := { g with functions := fs })
    g.path (named_of_parsed hfs) hc
  rw [hw₁.1] at hconfigs
  refine Ends.bind (hconfigs.mono_undef (fun _ _ h => h) (fun _ _ hwhy hreads hr => ?_)
    fun hno => .inl (by rwa [hdir])) ?_
  · have := hr.configs fs (by rwa [hdir])
    rw [hdir] at this
    exact hwhy hreads this
  rintro _ w₂ ⟨hw₂, cs, rfl, hcs, hfcs⟩
  have hosDesc := usbgParseGadgetOsDescBinding_ends (M := M) (w := w₂)
    (g := { g with functions := fs, configs := cs }) ho
  rw [hw₂.1, hw₁.1] at hosDesc
  refine hosDesc.mono_undef ?_ (fun _ _ hwhy hreads hr => ?_) fun hno => .inr (by rwa [hdir])
  · rintro _ w₃ ⟨hw₃, a, rfl, ha, hafits⟩
    refine ⟨(hw₁.trans hw₂).trans hw₃, rfl, hfits, hfs, ?_, hcs, ?_, ha, hafits⟩
    · exact hffs.mono (le_refl _) (hw₂.2.trans hw₃.2)
    · exact hfcs.mono hw₁.2 hw₃.2
  · have := hr.osDesc fs cs (by rwa [hdir])
    rw [hdir] at this
    exact hwhy hreads this

/-- Reading a string from a file that is there. -/
lemma usbgReadString_ends {path : Path} {name file : CStr} {U : Prop} :
    Ends (fun _ w' => ReadOn w w')
      (fun _ _ => M.Reads → ¬ ((path ++ [name, file]).Fits ∧
        ∃ content, w.tree.get (path ++ [name, file]).resolve = some (.file content))) U
      (usbgReadString M.kernel path name file w) := by
  refine Ends.bind (R := fun _ w' => ReadOn w w') ?_ fun _ _ h => h
  refine Ends.require_bind (fun _ => ?_) fun hfits _ hr => hfits hr.1
  rcases M.call_cases (.read (path ++ [name, file])) w with ⟨e, w', hw, hwhy, -, -⟩ | ⟨a, w', hw, ht, hn⟩
  · refine Ends.of_eq (bind_fail hw) ?_
    rintro hreads ⟨-, content, hget⟩
    obtain ⟨e, he, -⟩ := hwhy (hreads _ trivial)
    rw [exec, readFile, hget] at he
    cases he
  · exact Ends.of_eq (bind_ok hw) ⟨(exec_read.mp ht).2, le_of_eq hn.symm⟩

/-- `usbg_parse_gadget` -/
lemma usbgParseGadget_parsed {g : Gadget} {s : State} (hf : g.functions = []) (hc : g.configs = [])
    (ho : g.osDescBinding = none) :
    Ends (fun g' t => ReadOn w t.1 ∧ t.2.gadgets = s.gadgets ∧ t.2.path = s.path ∧ g'.addr = g.addr ∧
        g'.name = g.name ∧ g'.path = g.path ∧ ParsedGadget w.tree w.next t.1.next g')
      (fun _ _ => M.Reads → ¬ GadgetReadable w.tree g.dir) (GadgetSlashless w.tree g.dir)
      (usbgParseGadget M.kernel g (w, s)) := by
  rw [usbgParseGadget]
  refine Ends.bind (R := fun _ t => ReadOn w t.1 ∧ t.2 = s) (ends_io ?_) ?_
  · refine usbgReadString_ends.mono (fun _ _ h => ⟨h, rfl⟩) fun _ _ hwhy hreads hr => hwhy hreads ?_
    have := hr.udc
    simpa [Gadget.dir] using this
  rintro buf ⟨w₁, s'⟩ ⟨hw₁, hs'⟩
  obtain rfl : s = s' := hs'.symm
  rw [self_bind_apply]
  have hrest : ∀ (udc : Option Addr) (s' : State), s'.gadgets = s.gadgets → s'.path = s.path →
      Ends (fun g' t => ReadOn w t.1 ∧ t.2.gadgets = s.gadgets ∧ t.2.path = s.path ∧
          g'.addr = g.addr ∧ g'.name = g.name ∧ g'.path = g.path ∧
          ParsedGadget w.tree w.next t.1.next g')
        (fun _ _ => M.Reads → ¬ GadgetReadable w.tree g.dir) (GadgetSlashless w.tree g.dir)
        (io (parseGadgetContent M.kernel { g with udc }) (w₁, s')) := by
    intro udc s' hgs hp
    refine ends_io ?_
    have h := parseGadgetContent_ends (M := M) (w := w₁) (g := { g with udc }) hf hc ho
    rw [hw₁.1] at h
    refine h.mono (fun g' w' hg' => ?_) fun _ _ hwhy => hwhy
    obtain ⟨hw', hcore, hparsed⟩ := hg'
    refine ⟨hw₁.trans hw', hgs, hp, congrArg Gadget.Core.addr hcore, congrArg Gadget.Core.name hcore,
      congrArg Gadget.Core.path hcore, hparsed.mono hw₁.2 (le_refl _)⟩
  cases hu : usbgGetUdc s buf with
  | none => exact hrest none s rfl rfl
  | some u => exact hrest (some u.addr) (s.setUdcGadget u.addr (some g.addr)) rfl rfl

/-! ### The whole tree -/

/-- `usbg_parse_gadgets` -/
lemma usbgParseGadgets_parsed {s : State} (hs : s.gadgets = []) :
    Ends (fun _ t => ReadOn w t.1 ∧ t.2.path = s.path ∧ ParsedState w.tree w.next t.1.next t.2)
      (fun _ _ => M.Reads → ¬ (w.tree.IsDir s.path.resolve ∧
        ∀ name ∈ listing w.tree s.path.resolve fileSelect, GadgetReadable w.tree (s.path ++ [name])))
      (∃ name ∈ listing w.tree s.path.resolve fileSelect, GadgetSlashless w.tree (s.path ++ [name]))
      (usbgParseGadgets M.kernel s.path (w, s)) := by
  rw [usbgParseGadgets]
  refine Ends.bind (R := fun names t => (ReadOn w t.1 ∧ t.2 = s) ∧
    names = listing w.tree s.path.resolve fileSelect) (ends_io ?_) ?_
  · exact ends_scandir_readOn.mono (fun _ _ h => ⟨⟨h.1, rfl⟩, h.2⟩) fun _ _ hwhy hreads hr =>
      hwhy hreads hr.1
  rintro _ ⟨w₁, s'⟩ ⟨⟨hw₁, hs'⟩, rfl⟩
  obtain rfl : s = s' := hs'.symm
  -- the loop has read the gadgets of the names that are done, and their addresses are new
  refine Ends.mono (Ends.forEachDone (fun done t => ReadOn w t.1 ∧ t.2.path = s.path ∧
    List.Forall₂ (fun name g => g.name = name ∧ g.path = s.path ∧
      ParsedGadget w.tree w.next t.1.next g) done t.2.gadgets ∧
    Fresh w.next t.1.next (t.2.gadgets.map Gadget.addr)) (fun done name t hpre h => ?_) ?_) ?_
    fun _ _ h => h
  · obtain ⟨w', s'⟩ := t
    obtain ⟨hw', hp, hgs, hfresh⟩ := h
    have halloc : usbgAllocateGadget s.path name w' =
      (.ok (.allocated w'.next s.path name), { w' with next := w'.next + 1 }) := rfl
    refine Ends.of_eq (bind_ok (io_ok halloc)) ?_
    have h := usbgParseGadget_parsed (M := M) (w := { w' with next := w'.next + 1 }) (s := s')
      (g := .allocated w'.next s.path name) rfl rfl rfl
    have htree : World.tree { w' with next := w'.next + 1 } = w.tree := hw'.1
    rw [htree] at h
    refine Ends.bind (h.mono_undef (fun _ _ h => h) (fun _ _ hwhy hreads hr =>
      hwhy hreads (hr.2 name (hpre.subset (by simp)))) fun hno => ⟨name, hpre.subset (by simp), hno⟩) ?_
    rintro g ⟨w'', s''⟩ ⟨hw'', hgs'', hp'', ha, hname, hpath, hparsed⟩
    have hle : w'.next < w''.next := hw''.2
    refine ⟨⟨hw''.1.trans htree, hw'.2.trans hle.le⟩, hp''.trans hp, ?_, ?_⟩
    · show List.Forall₂ _ _ (s''.gadgets ++ [g])
      rw [hgs'']
      refine List.rel_append (hgs.imp fun _ _ h => ⟨h.1, h.2.1, h.2.2.mono (le_refl _) hle.le⟩) ?_
      exact .cons ⟨hname, hpath, hparsed.mono (hw'.2.trans (Nat.le_succ _)) (le_refl _)⟩ .nil
    · show Fresh _ _ ((s''.gadgets ++ [g]).map Gadget.addr)
      rw [hgs'', List.map_append, List.map_singleton, ha]
      exact hfresh.snoc hw'.2 (le_refl _) hle
  · refine ⟨hw₁, rfl, ?_, ?_⟩
    · rw [hs]
      exact .nil
    · rw [hs]
      exact .nil
  · rintro _ ⟨w', s'⟩ ⟨hw', hp, hgs, hfresh⟩
    refine ⟨hw', hp, ?_, hfresh⟩
    rw [hp]
    exact hgs

/-- Reading the controllers does not touch what is read later. -/
lemma usbgParseUdcs_ends {s : State} :
    Ends (fun _ t => ReadOn w t.1 ∧ t.2.path = s.path ∧ t.2.gadgets = s.gadgets)
      (fun e t => (ReadOn w t.1 ∧ t.2.path = s.path ∧ t.2.gadgets = s.gadgets) ∧
        (M.Reads → e = .notFound)) False
      (usbgParseUdcs M.kernel (w, s)) := by
  rw [usbgParseUdcs]
  refine Ends.bind (R := fun _ t => ReadOn w t.1 ∧ t.2 = s) (ends_io ?_) ?_
  · exact ends_scandir (fun w' ht hn _ => ⟨⟨ht, le_of_eq hn.symm⟩, rfl⟩)
      fun e w' hwhy ht hn => ⟨⟨⟨ht, le_of_eq hn.symm⟩, rfl, rfl⟩, fun hreads =>
        (hwhy (hreads _ trivial)).2⟩
  rintro names ⟨w₁, s'⟩ ⟨hw₁, hs'⟩
  obtain rfl : s = s' := hs'.symm
  refine Ends.forEach (fun name _ t h => ?_) ⟨hw₁, rfl, rfl⟩
  exact ⟨⟨h.1.1, Nat.le_succ_of_le h.1.2⟩, h.2.1, h.2.2⟩

/-- A tree that `usbg_init` can read. -/
structure Readable (T : Tree) (cfg : CStr) : Prop where
  dir : T.IsDir (Path.resolve [cfg, gadgetsDir])
  gadgets : ∀ name ∈ listing T (Path.resolve [cfg, gadgetsDir]) fileSelect,
    GadgetReadable T [cfg, gadgetsDir, name]

/-- `usbg_init` reads the tree, and does nothing to it. -/
lemma usbgInit_ends (cfg : CStr) :
    Ends (fun s w' => ReadOn w w' ∧ s.path = [cfg, gadgetsDir] ∧ ParsedState w.tree w.next w'.next s)
      (fun _ _ => M.Reads → ¬ Readable w.tree cfg) (LinkWithoutSlash w.tree cfg)
      (usbgInit M.kernel cfg w) := by
  rw [usbgInit]
  refine Ends.bind (R := fun _ w' => ReadOn w w')
    (ends_call (c := .opendir [cfg, gadgetsDir]) ?_ ?_) ?_
  · intro _ w' h hn
    exact ⟨(map_ret_eq_ok.mp h).2, le_of_eq hn.symm⟩
  · intro e w' hwhy _ _ hreads hr
    obtain ⟨errno, he, -⟩ := hwhy (hreads _ trivial)
    rw [exec, opendir_eq_ok.mpr hr.dir] at he
    cases he
  intro _ w₁ hw₁
  refine Ends.bind (R := fun (r : Unit × State) w' => ReadOn w w' ∧ r.2.path = [cfg, gadgetsDir] ∧
    ParsedState w.tree w.next w'.next r.2) (ends_withNew ?_) fun _ _ h => h
  rw [usbgParseState]
  -- the list of controllers may fail with `notFound`, and then the gadgets are read all the same
  refine Ends.bind (R := fun r t => (ReadOn w t.1 ∧ t.2.path = [cfg, gadgetsDir] ∧ t.2.gadgets = []) ∧
    ∀ e, r = .error e → M.Reads → e = .notFound) ?_ ?_
  · refine Ends.attempt (usbgParseUdcs_ends.mono_undef (fun _ t h => ?_) (fun e t h => ?_) False.elim)
    · exact ⟨⟨hw₁.trans h.1, h.2.1, h.2.2⟩, fun _ he => by cases he⟩
    · refine ⟨⟨hw₁.trans h.1.1, h.1.2.1, h.1.2.2⟩, ?_⟩
      rintro _ ⟨⟩
      exact h.2
  rintro r t ⟨ht, hr⟩
  refine Ends.bind (R := fun _ t => ReadOn w t.1 ∧ t.2.path = [cfg, gadgetsDir] ∧
    t.2.gadgets = []) ?_ ?_
  · cases r with
    | ok _ => exact ht
    | error e => exact Ends.require (fun _ => ht) fun hne hreads _ => hne (.inl (hr e rfl hreads))
  · rintro _ ⟨w₂, s⟩ ⟨hw₂, hp, hgs⟩
    have h := usbgParseGadgets_parsed (M := M) (w := w₂) hgs
    rw [hw₂.1] at h
    rw [self_bind_apply]
    refine h.mono_undef (fun _ t h => ?_) (fun _ _ hwhy hreads hr => hwhy hreads ?_) fun hno => ?_
    · exact ⟨hw₂.trans h.1, h.2.1.trans hp, h.2.2.mono hw₂.2 (le_refl _)⟩
    · rw [hp]
      exact ⟨hr.dir, hr.gadgets⟩
    · rw [hp] at hno
      exact hno

end Libusbgx
