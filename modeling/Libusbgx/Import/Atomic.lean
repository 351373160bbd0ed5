import Libusbgx.Configfs.Inside
import Libusbgx.Import.ConfigAttrs
import Libusbgx.Removal.Unbind
import Libusbgx.Undo.Constructors

/-!
# Imports that fail

The import of a function or of a configuration makes the object first and looks at the sections of the scheme
afterwards.  When a section is rejected, a configuration is removed again, with all that has been made in it; a
function is not, and neither are the functions that a configuration has defined for its bindings.
-/

namespace Libusbgx

open Prog Machine

/-! ## What the caller sees -/

/-- Only the record of the failed import has changed. -/
structure AsBefore (t t' : World Fs × Gadget) : Prop where
  tree : t'.1.tree.Same t.1.tree
  gadget : t'.2 = t.2.setFailedImport t'.2.lastFailedImport

/-- An import that fails leaves everything as it was. -/
def ImportAtomic (m : On Fs Gadget Addr) (t : World Fs × Gadget) : Prop := ∀ e t', m t = (.fail e, t') → AsBefore t t'

section Parts

variable {κ : Type} (K : Kernel κ) (ops : FunctionType → FunctionOps κ)

/-- The type that the scheme of a function names. -/
def schemeType (root : Setting) : Option FunctionType :=
  (root.getMember "type".toList).bind fun node => node.getString.bind usbgLookupFunctionType

/-- What `usbg_import_function_run` does with a new function. -/
def importFunctionContent (root : Setting) (f : Addr) : On κ Gadget Unit := do
  whenSome (fun node => onFunction f (usbgImportFunctionAttrs ops node)) (root.getMember "attrs".toList)
  whenSome (fun node => onFunction f (usbgImportFunctionOsDescs K node)) (root.getMember "os_descs".toList)

/-- The function has been made, and then one of the sections of its scheme is rejected. -/
def FunctionRejected (root : Setting) (inst : CStr) (t : World κ × Gadget) : Prop :=
  ∃ type a t₁ e t₂, schemeType root = some type ∧ usbgCreateFunction K ops type inst none t = (.ok a, t₁) ∧
    importFunctionContent K ops root a t₁ = (.fail e, t₂)

/-- The name that the scheme of a configuration gives. -/
def schemeName (root : Setting) : Option CStr := (root.getMember "name".toList).bind Setting.getString

/-- The configuration has been made, and then a section of its scheme is rejected; the gadget is `g'` by then. -/
def ConfigRejected (root : Setting) (id : ℤ) (t : World κ × Gadget) (name : CStr) (g' : Gadget) : Prop :=
  ∃ a t₁ e w', schemeName root = some name ∧ usbgCreateConfig K id (some name) none none t = (.ok a, t₁) ∧
    importConfigContent K ops root a t₁ = (.fail e, (w', g'))

/-- The directory for the strings of a configuration. -/
def configStrings (g : Gadget) (label : CStr) (id : ℤ) : Path := g.dir ++ [configsDir, configName label id, stringsDir]

/-- When the configuration is removed again nothing is left of the import: none of its bindings has defined a
function, and the path to the strings is short enough for the removal. -/
def LeavesNothing (g : Gadget) (id : ℤ) (name : CStr) (g' : Gadget) : Prop :=
  g'.functions = g.functions ∧ (configStrings g name id).Fits

end Parts

/-- The kernel allows what configfs allows, refuses no removal for other reasons, and puts a directory for
strings into a new configuration. -/
structure Obliging (M : Machine) (cfg : CStr) : Prop where
  configfs : Configfs M cfg
  rmdir : ∀ p, M.Grants (.rmdir p)
  unlink : ∀ p, M.Grants (.unlink p)
  scandir : ∀ p, M.Grants (.scandir p)
  strings : ∀ x c, ([stringsDir], none) ∈ M.groups [cfg, gadgetsDir, x, configsDir, c]

/-- A gadget in a tree as configfs has it; the addresses of its configurations are in use. -/
structure Importing (cfg : CStr) (w : World Fs) (g : Gadget) : Prop where
  shaped : Shaped cfg w.tree
  links : LinksAlive w.tree
  path : g.path = [cfg, gadgetsDir]
  dir : w.tree.IsDir g.dir
  fresh : ∀ c ∈ g.configs, c.addr < w.next
  freshOs : ∀ a ∈ g.osDescBinding, a < w.next

variable {M : Machine} {cfg x : CStr} {T T' : Tree} {w w' : World Fs} {g g' : Gadget} {c c' : Config} {d p q : Path}
  {bs : List Binding} {b : Binding} {pre post : List Config} {ops : FunctionType → FunctionOps Fs} {a : Addr}

/-! ## A configuration whose import is under way -/

/-- What has been made since the tree was `T` is in the directory `d` of a configuration with the bindings `bs`. -/
structure Underway (cfg : CStr) (T : Tree) (d : Path) (bs : List Binding) (w : World Fs) : Prop where
  shaped : Shaped cfg w.tree
  outside : Outside d T w.tree
  dir : w.tree.get d = some (.dir true)
  strings : w.tree.get (d ++ [stringsDir]) = some (.dir false)
  langs : ∀ l, w.tree.get (d ++ [stringsDir, l]) ≠ none → (d ++ [stringsDir, l]).Fits
  complete : ∀ y, w.tree.made (d ++ [y]) ≠ none → ∃ b ∈ bs, b.name = y
  bindings : ∀ b ∈ bs, b.path = d ∧ (d ++ [b.name]).Fits ∧ ∃ text t, w.tree.made (d ++ [b.name]) = some (.link text t)

namespace Underway

/-- A call that makes nothing directly in the directory. -/
lemma change (hM : Configfs M cfg) {sc : Syscall} (h : Underway cfg T d bs w) (hch : Change M w.tree sc w'.tree)
    (hr : ¬ sc.Removes) (hp : d <+: sc.path.resolve)
    (hplace : ∀ y, w'.tree.made (d ++ [y]) = w.tree.made (d ++ [y]))
    (hlangs : ∀ l, w'.tree.get (d ++ [stringsDir, l]) ≠ none →
      w.tree.get (d ++ [stringsDir, l]) ≠ none ∨ (d ++ [stringsDir, l]).Fits) : Underway cfg T d bs w' where
  shaped := h.shaped.change hM hch
  outside := h.outside.trans (hch.outside hp)
  dir := hch.get_dir h.dir fun hremoves => absurd hremoves hr
  strings := hch.get_dir h.strings fun hremoves => absurd hremoves hr
  langs l hl := (hlangs l hl).elim (h.langs l) id
  complete y hy := h.complete y (by rwa [hplace] at hy)
  bindings b hb := by
    obtain ⟨hpath, hfits, text, t, hmade⟩ := h.bindings b hb
    exact ⟨hpath, hfits, text, t, (hplace b.name).trans hmade⟩

/-- Nothing has happened. -/
lemma of_eq (h : Underway cfg T d bs w) (ht : w'.tree = w.tree) : Underway cfg T d bs w' := by
  obtain ⟨h₁, h₂, h₃, h₄, h₅, h₆, h₇⟩ := h
  exact ⟨ht ▸ h₁, ht ▸ h₂, ht ▸ h₃, ht ▸ h₄, ht ▸ h₅, ht ▸ h₆, ht ▸ h₇⟩

/-- Writing an attribute. -/
lemma write (hM : Configfs M cfg) (hd : d.Clean) {data : CStr} (h : Underway cfg T d bs w) (hp : d <+: p)
    (hch : Change M w.tree (.write p data) w'.tree) : Underway cfg T d bs w' := by
  rcases hch.of_write with hsame | ⟨content, hfile, hsame⟩
  · exact h.of_eq hsame
  · refine h.change hM hch id (hd.prefix_resolve hp) (fun y => hch.made_of_get id ?_ _) fun l hl => .inl ?_
    · show w.tree.get p.resolve ≠ none
      rw [hfile]
      simp
    · rw [hsame, FileTree.get_replace] at hl
      split at hl
      · exact fun hnone => hl (by rw [hnone]; rfl)
      · exact hl

/-- Making the directory of a language. -/
lemma mkdir (hM : Configfs M cfg) (hd : d.Clean) {l : CStr} (hl : l ≠ []) (hfits : (d ++ [stringsDir, l]).Fits)
    (h : Underway cfg T d bs w) (hch : Change M w.tree (.mkdir (d ++ [stringsDir, l])) w'.tree) :
    Underway cfg T d bs w' := by
  have hclean : (d ++ [stringsDir, l]).Clean := hd.append (by simp [hl])
  have hpath : (Syscall.mkdir (d ++ [stringsDir, l])).path.resolve = d ++ [stringsDir, l] := hclean.2
  refine h.change hM hch id ?_ (fun y => hch.made_of_ne ?_) fun l' hl' => ?_
  · rw [hpath]
    exact List.prefix_append ..
  · rw [hpath]
    simp
  · by_cases heq : l' = l
    · exact .inr (heq ▸ hfits)
    · refine .inl fun hnone => hl' ?_
      rw [← hnone]
      refine hch.outside (p := d ++ [stringsDir, l]) (by rw [hpath]) _ ?_
      rw [List.prefix_append_right_inj]
      rintro ⟨r, hr⟩
      simp at hr
      exact heq hr.1.symm

/-- A new binding. -/
lemma symlink (hM : Configfs M cfg) (hd : d.Clean) {target : Path} (h : Underway cfg T d bs w)
    (hch : Change M w.tree (.symlink target (d ++ [b.name])) w'.tree)
    (hok : Machine.symlink w.tree target.render target.resolve (d ++ [b.name]).resolve = .ok w'.tree)
    (hpath : b.path = d) (hfits : (d ++ [b.name]).Fits) :
    Underway cfg T d (insertSorted Binding.name b bs) w' := by
  obtain ⟨hfree, -, -, -, ht⟩ := symlink_eq_ok.mp hok
  have hname : b.name ≠ [] := by
    rintro hnil
    rw [hnil, hd.resolve_append] at hfree
    have hdir := h.dir
    rw [show d ++ [([] : CStr)].filter (· ≠ []) = d by simp] at hfree
    rw [hfree] at hdir
    cases hdir
  have hclean : (d ++ [b.name]).Clean := hd.append (by simpa using hname)
  have hself := made_symlink hok
  rw [hclean.2] at hfree ht hself
  have hne : ∀ q, q ≠ d ++ [b.name] → w'.tree.get q = w.tree.get q := by
    intro q hq
    rw [ht, FileTree.get_add, if_neg (Ne.symm hq), Option.or_none]
  -- a binding cannot take the name of the directory of the strings
  have hstrings : d ++ [stringsDir] ≠ d ++ [b.name] := by
    intro heq
    rw [← heq, h.strings] at hfree
    cases hfree
  have hother : ∀ y, y ≠ b.name → w'.tree.made (d ++ [y]) = w.tree.made (d ++ [y]) := fun y hy =>
    FileTree.made_congr (hne _ (by simpa using hy))
  refine
    { shaped := h.shaped.change hM hch
      outside := h.outside.trans (hch.outside ?_)
      dir := hch.get_dir h.dir fun hremoves => hremoves.elim
      strings := (hne _ hstrings).trans h.strings
      langs := fun l hl => h.langs l (by rwa [hne _ (by simp)] at hl)
      complete := fun y hy => ?_
      bindings := fun b' hb' => ?_ }
  · show d <+: (d ++ [b.name]).resolve
    rw [hclean.2]
    exact List.prefix_append ..
  · by_cases heq : y = b.name
    · exact ⟨b, mem_insertSorted.mpr (.inl rfl), heq.symm⟩
    · rw [hother y heq] at hy
      obtain ⟨b', hb', hn⟩ := h.complete y hy
      exact ⟨b', mem_insertSorted.mpr (.inr hb'), hn⟩
  · rcases mem_insertSorted.mp hb' with rfl | hb'
    · exact ⟨hpath, hfits, _, _, hself⟩
    · obtain ⟨hpath', hfits', text, t, hmade⟩ := h.bindings b' hb'
      refine ⟨hpath', hfits', text, t, (hother _ ?_).trans hmade⟩
      rintro heq
      rw [heq, FileTree.made_of_get_none hfree] at hmade
      cases hmade

/-! ### What keeps it so -/

section Keeps

variable (hM : Configfs M cfg) (hd : d.Clean)

include hM hd

lemma keeps_usbgWriteBuf {path : Path} {name file buf : CStr} (hp : d <+: path ++ [name, file]) :
    Keeps (Underway cfg T d bs) (usbgWriteBuf M.kernel path name file buf) :=
  .bind (.require _) fun _ w hw => hw.write hM hd hp (kernel_change M (.write _ _) w)

/-- The attributes of the configuration. -/
lemma keeps_usbgImportConfigAttrs {root : Setting} (hc : c.dir = d) :
    Keeps (Underway cfg T d bs) (usbgImportConfigAttrs M.kernel root c) := by
  have hset : ∀ file buf, Keeps (Underway cfg T d bs) (usbgWriteBuf M.kernel c.path c.name file buf) := fun file buf =>
    keeps_usbgWriteBuf hM hd (by rw [← hc]; exact ⟨[file], by simp [Config.dir]⟩)
  have hattr : ∀ name set, (∀ v, Keeps (Underway cfg T d bs) (set v)) →
      Keeps (Underway cfg T d bs) (importConfigAttr root name set) := by
    intro name set hkeeps
    rw [importConfigAttr]
    cases root.getMember name with
    | none => exact .pure ()
    | some node => exact .ite (fun _ => .fail _) fun _ => hkeeps _
  exact .bind (hattr _ _ fun _ => hset _ _) fun _ => hattr _ _ fun _ => hset _ _

/-- A language directory that may be there. -/
lemma keeps_usbgCheckDir {l : CStr} (hl : l ≠ []) (hfits : (d ++ [stringsDir, l]).Fits) :
    Keeps (Underway cfg T d bs) (usbgCheckDir M.kernel (d ++ [stringsDir, l])) := by
  refine .bind (fun w hw => hw.of_eq (eq_of_opendir (kernel_change M (.opendir _) w))) fun r => ?_
  cases r with
  | ok _ => exact .pure ()
  | error e =>
    exact .ite (fun _ w hw => hw.mkdir hM hd hl hfits (kernel_change M (.mkdir _) w)) fun _ => .fail _

/-- The strings of the configuration. -/
lemma keeps_usbgImportConfigStrings {root : Setting} (hc : c.dir = d) :
    Keeps (Underway cfg T d bs) (usbgImportConfigStrings M.kernel root c) := by
  refine .forEach fun node _ => .bind (.require _) fun _ => .bind (.ofExcept _) fun lang => .bind (.ofExcept _) fun str => ?_
  rw [usbgSetConfigStrs]
  cases str with
  | none => exact .fail _
  | some str =>
    have hpath : c.path ++ [c.name, stringsDir, langDir lang] = d ++ [stringsDir, langDir lang] := by
      rw [← hc, Config.dir, List.append_assoc]
      rfl
    show Keeps _ (require (c.path ++ [c.name, stringsDir, langDir lang]).Fits .pathTooLong >>= fun _ =>
      usbgCheckDir M.kernel (c.path ++ [c.name, stringsDir, langDir lang]) >>= fun _ =>
        usbgWriteString M.kernel (c.path ++ [c.name, stringsDir, langDir lang]) [] "configuration".toList (some str))
    rw [hpath]
    refine fun w hw => ?_
    by_cases hfits : (d ++ [stringsDir, langDir lang]).Fits
    · rw [require_of hfits, pure_bind]
      exact Keeps.bind (keeps_usbgCheckDir hM hd (by simp [langDir]) hfits) (fun _ =>
        keeps_usbgWriteBuf hM hd ⟨[stringsDir, langDir lang, [], "configuration".toList], by simp⟩) w hw
    · rw [require_of_not hfits]
      exact hw

end Keeps

end Underway

/-! ## A gadget with such a configuration -/

/-- The gadget `g` with the configuration `c` between its other ones. -/
def Gadget.withConfig (g : Gadget) (pre : List Config) (c : Config) (post : List Config) : Gadget :=
  { g with configs := pre ++ c :: post }

/-- The configuration has an address of its own. -/
structure Apart (pre : List Config) (c : Config) (post : List Config) : Prop where
  before : ∀ c' ∈ pre, c'.addr ≠ c.addr
  behind : ∀ c' ∈ post, c'.addr ≠ c.addr

namespace Apart

lemma config? (h : Apart pre c post) : (g.withConfig pre c post).config? c.addr = some c := by
  have hnone : pre.find? (fun c' => c'.addr = c.addr) = none := find?_key_eq_none.mpr h.before
  rw [Gadget.config?, Gadget.withConfig, List.find?_append, hnone, Option.none_or, List.find?_cons_of_pos (by simp)]

lemma setConfig (h : Apart pre c post) (hc : c'.addr = c.addr) :
    (g.withConfig pre c post).setConfig c' = g.withConfig pre c' post := by
  rw [Gadget.setConfig, Gadget.withConfig, Gadget.withConfig, List.map_append, List.map_cons, if_pos hc.symm]
  congr 2
  · exact (List.map_congr_left fun x hx => if_neg (hc ▸ h.before x hx)).trans (List.map_id _)
  · congr 1
    exact (List.map_congr_left fun x hx => if_neg (hc ▸ h.behind x hx)).trans (List.map_id _)

lemma filter (h : Apart pre c post) : (pre ++ c :: post).filter (·.addr ≠ c.addr) = pre ++ post := by
  have hpre : pre.filter (·.addr ≠ c.addr) = pre := List.filter_eq_self.mpr fun x hx => by simpa using h.before x hx
  have hpost : post.filter (·.addr ≠ c.addr) = post := List.filter_eq_self.mpr fun x hx => by simpa using h.behind x hx
  rw [List.filter_append, List.filter_cons_of_neg (by simp), hpre, hpost]

end Apart

/-- The configuration `c` of the gadget is being imported, and a function has been defined for one of its
bindings. -/
def Enlarged (g : Gadget) (pre : List Config) (c : Config) (post : List Config) (s : World Fs × Gadget) : Prop :=
  ∃ bs fs, s.2 = { g.withConfig pre { c with bindings := bs } post with functions := fs } ∧
    KeysNodup Binding.name bs ∧ g.functions.length < fs.length

/-- No function has been defined so far, and all that has been made is in the directory of the configuration. -/
def Populated (cfg : CStr) (T : Tree) (g : Gadget) (pre : List Config) (c : Config) (post : List Config)
    (s : World Fs × Gadget) : Prop :=
  ∃ bs, s.2 = g.withConfig pre { c with bindings := bs } post ∧ KeysNodup Binding.name bs ∧
    Underway cfg T c.dir bs s.1

/-- The configuration is being imported. -/
def InProgress (cfg : CStr) (T : Tree) (g : Gadget) (pre : List Config) (c : Config) (post : List Config)
    (s : World Fs × Gadget) : Prop := Enlarged g pre c post s ∨ Populated cfg T g pre c post s

lemma keeps_inProgress_io {α : Type} {m : Io Fs α} (hm : ∀ bs, Keeps (Underway cfg T c.dir bs) m) :
    Keeps (InProgress cfg T g pre c post) (io m) := by
  rintro ⟨w, g'⟩ (hs | ⟨bs, hg, hnames, hw⟩)
  · exact .inl hs
  · exact .inr ⟨bs, hg, hnames, hm bs w hw⟩

lemma keeps_inProgress_self : Keeps (InProgress cfg T g pre c post) (self : On Fs Gadget Gadget) := fun _ hs => hs

/-- What is done with a function changes none of the lists. -/
lemma keeps_enlarged_onFunction {α : Type} {m : On Fs Func α} : Keeps (Enlarged g pre c post) (onFunction a m) := by
  rintro ⟨w, g'⟩ ⟨bs, fs, hg, hnames, hlen⟩
  dsimp only at hg
  rw [onFunction]
  cases hf : g'.function? a with
  | none =>
    rw [zoom_none (by rw [hf]; rfl)]
    exact ⟨bs, fs, hg, hnames, hlen⟩
  | some f =>
    rw [zoom_some (by rw [hf]; rfl)]
    refine ⟨bs, ((g'.setFunction (m (w, f)).2.2)).functions, ?_, hnames, ?_⟩
    · rw [Gadget.setFunction, hg]
    · rw [Gadget.setFunction, hg, List.length_map]
      exact hlen

/-! ### Functions -/

/-- The sections of a function. -/
lemma keeps_enlarged_importFunctionContent {root : Setting} {f : Addr} :
    Keeps (Enlarged g pre c post) (importFunctionContent M.kernel ops root f) :=
  .bind (.whenSome fun _ _ => keeps_enlarged_onFunction) fun _ => .whenSome fun _ _ => keeps_enlarged_onFunction

lemma usbgImportFunctionRun_eq {κ : Type} (K : Kernel κ) (ops : FunctionType → FunctionOps κ) (root : Setting) (inst : CStr)
    {type : FunctionType} (h : schemeType root = some type) :
    usbgImportFunctionRun K ops root inst = usbgCreateFunction K ops type inst none >>= fun f =>
      importFunctionContent K ops root f >>= fun _ => pure f := by
  obtain ⟨node, hnode, hrest⟩ := Option.bind_eq_some_iff.mp h
  obtain ⟨name, hname, htype⟩ := Option.bind_eq_some_iff.mp hrest
  rw [usbgImportFunctionRun, hnode]
  dsimp only
  rw [hname]
  dsimp only
  rw [htype]
  dsimp only
  congr 1
  funext f
  rw [importFunctionContent, Prog.bind_assoc]

/-- Without a type nothing is made. -/
lemma usbgImportFunctionRun_of_none {κ : Type} (K : Kernel κ) (ops : FunctionType → FunctionOps κ) {root : Setting}
    (inst : CStr) (h : schemeType root = none) : ∃ e, usbgImportFunctionRun K ops root inst = fail e := by
  rw [usbgImportFunctionRun]
  rw [schemeType] at h
  cases hnode : root.getMember "type".toList with
  | none => exact ⟨_, rfl⟩
  | some node =>
    dsimp only
    cases hname : node.getString with
    | none => exact ⟨_, rfl⟩
    | some name =>
      dsimp only
      rw [hnode, Option.bind_some, hname, Option.bind_some] at h
      rw [h]
      exact ⟨_, rfl⟩

/-- `usbg_create_function` without attributes makes a directory and a function, or nothing. -/
lemma usbgCreateFunction_bare (M : Machine) (ops : FunctionType → FunctionOps Fs) (w : World Fs) (g : Gadget)
    (type : FunctionType) (inst : CStr) :
    Ends (fun _ t => ∃ f, t.2 = { g with functions := insertSorted Func.name f g.functions })
      (fun _ t => t.1.tree = w.tree ∧ t.2 = g) False (usbgCreateFunction M.kernel ops type inst none (w, g)) := by
  rw [usbgCreateFunction]
  refine Ends.require_bind (fun _ => ?_) fun _ => ⟨rfl, rfl⟩
  rw [self_bind_apply]
  refine Ends.require_bind (fun _ => ?_) fun _ => ⟨rfl, rfl⟩
  refine Ends.require_bind (fun _ => ?_) fun _ => ⟨rfl, rfl⟩
  have halloc : usbgAllocateFunction (g.path ++ [g.name, functionsDir]) type inst w =
    (.ok (newFunction g type inst w.next), { w with next := w.next + 1 }) := rfl
  refine Ends.of_eq (bind_ok (io_ok halloc)) ?_
  refine Ends.require_bind (fun _ => ?_) fun _ => ⟨rfl, rfl⟩
  refine Ends.bind (R := fun _ t => t.2 = g) (ends_io (ends_mkdir (fun _ _ _ => rfl) fun _ _ ht _ => ⟨ht, rfl⟩)) ?_
  rintro - ⟨w', g'⟩ hg
  exact ⟨newFunction g type inst w.next, by rw [show g' = g from hg]⟩

/-- So does the import of a function, while a configuration is imported. -/
lemma usbgImportFunctionRun_inProgress {root : Setting} {inst : CStr} {s : World Fs × Gadget}
    (hs : InProgress cfg T g pre c post s) :
    Ends (fun _ => InProgress cfg T g pre c post) (fun _ => InProgress cfg T g pre c post) True
      (usbgImportFunctionRun M.kernel ops root inst s) := by
  cases htype : schemeType root with
  | none =>
    obtain ⟨e, he⟩ := usbgImportFunctionRun_of_none M.kernel ops inst htype
    rw [he]
    exact hs
  | some type =>
    rw [usbgImportFunctionRun_eq M.kernel ops root inst htype]
    obtain ⟨w, g'⟩ := s
    have hmade : Ends (fun _ => Enlarged g pre c post) (fun _ => InProgress cfg T g pre c post) True
        (usbgCreateFunction M.kernel ops type inst none (w, g')) := by
      refine (usbgCreateFunction_bare ..).mono_undef ?_ ?_ False.elim
      · rintro - ⟨w', g''⟩ ⟨f, hg''⟩
        obtain ⟨bs, fs, hg', hnames, hle⟩ : ∃ bs fs, g' = { g.withConfig pre { c with bindings := bs } post with
            functions := fs } ∧ KeysNodup Binding.name bs ∧ g.functions.length ≤ fs.length := by
          rcases hs with ⟨bs, fs, hg', hnames, hlt⟩ | ⟨bs, hg', hnames, -⟩
          · exact ⟨bs, fs, hg', hnames, le_of_lt hlt⟩
          · exact ⟨bs, g.functions, hg', hnames, le_refl _⟩
        refine ⟨bs, insertSorted Func.name f fs, ?_, hnames, ?_⟩
        · rw [show g'' = _ from hg'', hg']
        · rw [insertSorted_perm.length_eq, List.length_cons]
          omega
      · rintro - ⟨w', g''⟩ ⟨ht, hg''⟩
        obtain rfl : g'' = g' := hg''
        rcases hs with hs | ⟨bs, hg', hnames, hw⟩
        · exact .inl hs
        · exact .inr ⟨bs, hg', hnames, hw.of_eq ht⟩
    refine Ends.bind hmade fun f t ht => ?_
    exact (Keeps.bind keeps_enlarged_importFunctionContent fun _ => Keeps.pure f).ends ht |>.mono (fun _ _ h => .inl h)
      fun _ _ h => .inl h

/-! ### Bindings -/

/-- A new binding has a name that the configuration does not know yet. -/
lemma usbgAddConfigFunction_ends (hM : Configfs M cfg) {name : CStr} {f : Func} (hd : c.dir.Clean) :
    Ends (fun _ s => ∃ b, s.2 = { c with bindings := insertSorted Binding.name b c.bindings } ∧
        (∀ b' ∈ c.bindings, b'.name ≠ b.name) ∧
        (Underway cfg T c.dir c.bindings w → Underway cfg T c.dir (insertSorted Binding.name b c.bindings) s.1))
      (fun _ s => s.2 = c ∧ s.1.tree = w.tree) False (usbgAddConfigFunction M.kernel (some name) f (w, c)) := by
  rw [usbgAddConfigFunction]
  dsimp only [Option.getD_some]
  rw [self_bind_apply]
  refine Ends.require_bind (fun hnew => ?_) fun _ => ⟨rfl, rfl⟩
  refine Ends.require_bind (fun _ => ?_) fun _ => ⟨rfl, rfl⟩
  refine Ends.require_bind (fun _ => ?_) fun _ => ⟨rfl, rfl⟩
  refine Ends.require_bind (fun _ => ?_) fun _ => ⟨rfl, rfl⟩
  have halloc : usbgAllocateBinding (c.path ++ [c.name]) name f w =
    (.ok { name, path := c.path ++ [c.name], target := f.addr }, w) := rfl
  refine Ends.of_eq (bind_ok (io_ok halloc)) ?_
  refine Ends.require_bind (fun hfits => ?_) fun _ => ⟨rfl, rfl⟩
  have hch := kernel_change M (.symlink (f.path ++ [f.name]) (c.path ++ [c.name] ++ [name])) w
  refine Ends.bind (R := fun _ s => s.2 = c ∧ (Underway cfg T c.dir c.bindings w → Underway cfg T c.dir
    (insertSorted Binding.name { name, path := c.path ++ [c.name], target := f.addr } c.bindings) s.1))
    (ends_io ?_) ?_
  · rcases M.call_cases (.symlink (f.path ++ [f.name]) (c.path ++ [c.name] ++ [name])) w with
      ⟨e, w', hw, -, ht, -⟩ | ⟨u, w', hw, hexec, -⟩
    · rw [hw]
      exact ⟨rfl, ht⟩
    · have hw' : w' = (call M.kernel (.symlink (f.path ++ [f.name]) (c.path ++ [c.name] ++ [name])) w).2 := by rw [hw]
      have hch' : Change M w.tree (.symlink (f.path ++ [f.name]) (c.path ++ [c.name] ++ [name])) w'.tree := hw' ▸ hch
      rw [hw]
      exact ⟨rfl, fun hunder => hunder.symlink hM hd hch' (exec_symlink.mp hexec) rfl hfits⟩
  · rintro - ⟨w', c'⟩ ⟨hc', hunder⟩
    obtain rfl : c' = c := hc'
    refine ⟨_, rfl, fun b' hb' heq => ?_, hunder⟩
    exact absurd hnew ((find?_key_isSome ⟨b', hb', heq⟩).elim fun b hb => by simp [usbgGetBinding, hb])

/-- Adding a binding, while the configuration is imported. -/
lemma addConfigFunction_inProgress (hM : Configfs M cfg) (hd : c.dir.Clean) (hapart : Apart pre c post) {name : CStr}
    {f : Func} {s : World Fs × Gadget} (hs : InProgress cfg T g pre c post s) :
    Ends (fun _ => InProgress cfg T g pre c post) (fun _ => InProgress cfg T g pre c post) True
      (onConfig c.addr (usbgAddConfigFunction M.kernel (some name) f) s) := by
  obtain ⟨w, g'⟩ := s
  -- the two cases differ in the functions and in what is known of the tree
  have hstep : ∀ (fs : List Func) (bs : List Binding) (P : List Binding → World Fs → Prop),
      (∀ w', w'.tree = w.tree → P bs w → P bs w') →
      (∀ b w', (Underway cfg T c.dir bs w → Underway cfg T c.dir (insertSorted Binding.name b bs) w') → P bs w →
        P (insertSorted Binding.name b bs) w') →
      KeysNodup Binding.name bs → P bs w →
      Ends (fun _ s => ∃ bs, s.2 = { g with functions := fs }.withConfig pre { c with bindings := bs } post ∧
          KeysNodup Binding.name bs ∧ P bs s.1)
        (fun _ s => ∃ bs, s.2 = { g with functions := fs }.withConfig pre { c with bindings := bs } post ∧
          KeysNodup Binding.name bs ∧ P bs s.1) True
        (onConfig c.addr (usbgAddConfigFunction M.kernel (some name) f)
          (w, { g with functions := fs }.withConfig pre { c with bindings := bs } post)) := by
    intro fs bs P hsame hnew hnames hP
    have hapart' : Apart pre { c with bindings := bs } post := ⟨hapart.before, hapart.behind⟩
    refine ends_onConfig (c := { c with bindings := bs }) hapart'.config? ?_
    refine (usbgAddConfigFunction_ends (T := T) (c := { c with bindings := bs }) hM hd).mono_undef ?_ ?_ False.elim
    · rintro - ⟨w', c'⟩ ⟨b, hc', hfresh, hunder⟩
      obtain rfl : c' = _ := hc'
      exact ⟨_, hapart'.setConfig rfl, (hnames.cons hfresh).perm insertSorted_perm, hnew b w' hunder hP⟩
    · rintro - ⟨w', c'⟩ ⟨hc', ht⟩
      obtain rfl : c' = _ := hc'
      exact ⟨bs, hapart'.setConfig rfl, hnames, hsame w' ht hP⟩
  rcases hs with ⟨bs, fs, hg, hnames, hlen⟩ | ⟨bs, hg, hnames, hw⟩
  · obtain rfl : g' = _ := hg
    refine (hstep fs bs (fun _ _ => g.functions.length < fs.length) (fun _ _ h => h) (fun _ _ _ h => h) hnames hlen).mono
      ?_ ?_
    · rintro - s ⟨bs, hg, hnames, hlen⟩
      exact .inl ⟨bs, fs, hg, hnames, hlen⟩
    · rintro - s ⟨bs, hg, hnames, hlen⟩
      exact .inl ⟨bs, fs, hg, hnames, hlen⟩
  · obtain rfl : g' = _ := hg
    refine (hstep g.functions bs (Underway cfg T c.dir) (fun _ ht h => h.of_eq ht) (fun _ _ h h' => h h') hnames hw).mono
      ?_ ?_
    · rintro - s ⟨bs, hg, hnames, hw⟩
      exact .inr ⟨bs, hg, hnames, hw⟩
    · rintro - s ⟨bs, hg, hnames, hw⟩
      exact .inr ⟨bs, hg, hnames, hw⟩

lemma keeps_inProgress_importTarget {node : Setting} :
    Keeps (InProgress cfg T g pre c post) (importTarget node) := by
  rw [importTarget]
  cases node.getString with
  | none => exact .fail _
  | some label =>
    refine .bind keeps_inProgress_self fun _ => .bind (keeps_inProgress_io fun _ => keeps_usbgLookupFunction) fun target => ?_
    cases target with
    | none => exact .fail _
    | some f => exact .pure _

lemma importBindingFunction_inProgress {node : Setting} {s : World Fs × Gadget} (hs : InProgress cfg T g pre c post s) :
    Ends (fun _ => InProgress cfg T g pre c post) (fun _ => InProgress cfg T g pre c post) True
      (importBindingFunction M.kernel ops node s) := by
  refine Ends.ite (fun _ => keeps_inProgress_importTarget.ends hs) fun _ => Ends.ite (fun _ => ?_) fun _ => hs
  cases node.getMember "instance".toList with
  | none => exact hs
  | some instNode =>
    dsimp only
    cases instNode.getString with
    | none => exact hs
    | some inst =>
      exact Ends.bind (usbgImportFunctionRun_inProgress hs) fun _ t ht =>
        (Keeps.bind keeps_inProgress_self fun _ => Keeps.deref _).ends ht

/-- The bindings of the configuration. -/
lemma usbgImportConfigBindings_inProgress (hM : Configfs M cfg) (hd : c.dir.Clean) (hapart : Apart pre c post)
    {root : Setting} {s : World Fs × Gadget} (hs : InProgress cfg T g pre c post s) :
    Ends (fun _ => InProgress cfg T g pre c post) (fun _ => InProgress cfg T g pre c post) True
      (usbgImportConfigBindings M.kernel ops root c.addr s) := by
  refine Ends.forEach (fun node _ t ht => ?_) hs
  refine Ends.ite (fun _ => ?_) fun _ => Ends.ite (fun _ => ?_) fun _ => ht
  · exact Ends.bind (keeps_inProgress_importTarget.ends ht) fun _ _ ht => addConfigFunction_inProgress hM hd hapart ht
  · rw [usbgImportBindingGroup]
    cases node.getMember "function".toList with
    | none => exact ht
    | some function =>
      exact Ends.bind (importBindingFunction_inProgress ht) fun _ _ ht =>
        Ends.bind ((Keeps.ofExcept _).ends ht) fun _ _ ht => addConfigFunction_inProgress hM hd hapart ht

/-- The sections of a configuration. -/
lemma importConfigContent_inProgress (hM : Configfs M cfg) (hd : c.dir.Clean) (hapart : Apart pre c post)
    {root : Setting} (hs : Populated cfg T g pre c post (w, g')) :
    Ends (fun _ => InProgress cfg T g pre c post) (fun _ => InProgress cfg T g pre c post) True
      (importConfigContent M.kernel ops root c.addr (w, g')) := by
  have hprogress : InProgress cfg T g pre c post (w, g') := .inr hs
  obtain ⟨bs, hg', -, -⟩ := hs
  have hconf : g'.config? c.addr = some { c with bindings := bs } := by
    rw [show g' = _ from hg']
    exact (Apart.config? (g := g) (c := { c with bindings := bs }) ⟨hapart.before, hapart.behind⟩)
  rw [importConfigContent, self_bind_apply]
  dsimp only
  rw [hconf, deref_some, pure_bind]
  refine Ends.bind ((Keeps.whenSome fun node _ => .bind (.require _) fun _ => keeps_inProgress_io fun _ =>
    Underway.keeps_usbgImportConfigAttrs hM hd rfl).ends hprogress) fun _ t ht => ?_
  refine Ends.bind ((Keeps.whenSome fun node _ => .bind (.require _) fun _ => keeps_inProgress_io fun _ =>
    Underway.keeps_usbgImportConfigStrings hM hd rfl).ends ht) fun _ t ht => ?_
  cases root.getMember "functions".toList with
  | none => exact ht
  | some node =>
    exact Ends.require_bind (fun _ => usbgImportConfigBindings_inProgress hM hd hapart ht) fun _ => ht

/-! ## The removal -/

section Removal

/-- A file that is a link. -/
lemma usbgRmFile_ok (hg : M.Grants (.unlink p)) {path : Path} {name : CStr} (hp : path ++ [name] = p) (hclean : p.Clean)
    (hfits : p.Fits) {text : CStr} {t : Path} (hl : w.tree.get p = some (.link text t)) :
    Ends (fun _ w' => w'.tree = w.tree.erase p) (fun _ _ => False) False (usbgRmFile M.kernel path name w) := by
  refine ends_usbgRmFile (fun w' hok _ => ?_) fun e w' hwhy _ _ => ?_
  · rw [hp, hclean.2] at hok
    exact (unlink_eq_ok.mp hok).2
  · rw [hp] at hwhy
    obtain ⟨e, he⟩ := hwhy hfits hg
    rw [exec, hclean.2, unlink_eq_ok.mpr ⟨⟨text, t, hl⟩, rfl⟩] at he
    cases he

/-- A directory that can be removed. -/
lemma usbgRmDir_ok (hg : M.Grants (.rmdir p)) {path : Path} {name : CStr} (hp : path ++ [name] = p) (hclean : p.Clean)
    (hfits : p.Fits) (hok : Machine.rmdir w.tree p = .ok T') :
    Ends (fun _ w' => w'.tree = T') (fun _ _ => False) False (usbgRmDir M.kernel path name w) := by
  refine ends_usbgRmDir (fun w' hok' _ => ?_) fun e w' hwhy _ _ => ?_
  · rw [hp, hclean.2, hok] at hok'
    exact (Except.ok.inj hok').symm
  · rw [hp] at hwhy
    obtain ⟨e, he⟩ := hwhy hfits hg
    rw [exec, hclean.2, hok] at he
    cases he

/-- The link of the first binding is gone. -/
lemma Underway.unlink (h : Underway cfg T d (b :: bs) w) (hnames : KeysNodup Binding.name (b :: bs))
    (ht : w'.tree = w.tree.erase (d ++ [b.name])) : Underway cfg T d bs w' := by
  obtain ⟨-, -, text, t, hmade⟩ := h.bindings b List.mem_cons_self
  have hlink := (FileTree.made_eq_some.mp hmade).1
  have hne : ∀ q, q ≠ d ++ [b.name] → w'.tree.get q = w.tree.get q := by
    intro q hq
    rw [ht, FileTree.get_erase, if_neg hq]
  have hdir : ∀ q made, w.tree.get q = some (.dir made) → w'.tree.get q = some (.dir made) := by
    intro q made hq
    refine (hne q ?_).trans hq
    rintro rfl
    rw [hlink] at hq
    cases hq
  refine
    { shaped := ht ▸ h.shaped.erase hlink
      outside := fun q hq => (hne q fun heq => hq (heq ▸ List.prefix_append ..)).trans (h.outside q hq)
      dir := hdir _ _ h.dir
      strings := hdir _ _ h.strings
      langs := fun l hl => h.langs l (by rwa [hne _ (by simp)] at hl)
      complete := fun y hy => ?_
      bindings := fun b' hb' => ?_ }
  · by_cases heq : y = b.name
    · refine absurd (FileTree.made_of_get_none ?_) hy
      rw [ht, FileTree.get_erase, if_pos (by rw [heq])]
    · rw [FileTree.made_congr (hne _ (by simpa using heq))] at hy
      obtain ⟨b', hb', hn⟩ := h.complete y hy
      rcases List.mem_cons.mp hb' with rfl | hb'
      · exact absurd hn.symm heq
      · exact ⟨b', hb', hn⟩
  · obtain ⟨hpath, hfits, text, t, hmade'⟩ := h.bindings b' (List.mem_cons_of_mem _ hb')
    have hne' : b'.name ≠ b.name := fun heq => (List.nodup_cons.mp hnames).1 (heq ▸ List.mem_map_of_mem hb')
    exact ⟨hpath, hfits, text, t, (FileTree.made_congr (hne _ (by simpa using hne'))).trans hmade'⟩

/-- Taking away the directory of a language. -/
lemma Underway.rmLang (h : Underway cfg T d bs w) {l : CStr} (ht : w'.tree = w.tree.prune (d ++ [stringsDir, l])) :
    Underway cfg T d bs w' ∧ w'.tree.get (d ++ [stringsDir, l]) = none ∧
      ∀ l', l' ≠ l → w'.tree.get (d ++ [stringsDir, l']) = w.tree.get (d ++ [stringsDir, l']) := by
  have hne : ∀ r, ¬ [stringsDir, l] <+: r → w'.tree.get (d ++ r) = w.tree.get (d ++ r) := by
    intro r hr
    rw [ht, FileTree.get_prune, if_neg]
    rwa [List.prefix_append_right_inj]
  have hself : w'.tree.get (d ++ [stringsDir, l]) = none := by
    rw [ht, FileTree.get_prune, if_pos List.prefix_rfl]
  have hlang : ∀ l', l' ≠ l → w'.tree.get (d ++ [stringsDir, l']) = w.tree.get (d ++ [stringsDir, l']) := by
    refine fun l' hl' => hne _ ?_
    rintro ⟨r, hr⟩
    simp at hr
    exact hl' hr.1.symm
  have hshort : ∀ y, w'.tree.get (d ++ [y]) = w.tree.get (d ++ [y]) := by
    refine fun y => hne _ ?_
    rintro ⟨r, hr⟩
    simp at hr
  have hdir : w'.tree.get d = w.tree.get d := by
    have := hne [] (by simp)
    rwa [List.append_nil] at this
  refine ⟨?_, hself, hlang⟩
  refine
    { shaped := ht ▸ h.shaped.prune _
      outside := fun q hq => ?_
      dir := hdir.trans h.dir
      strings := (hshort _).trans h.strings
      langs := fun l' hl' => ?_
      complete := fun y hy => h.complete y (by rwa [FileTree.made_congr (hshort y)] at hy)
      bindings := fun b hb => ?_ }
  · rw [ht, FileTree.get_prune, if_neg fun hpre => hq ((List.prefix_append ..).trans hpre)]
    exact h.outside q hq
  · by_cases heq : l' = l
    · exact absurd (heq ▸ hself) hl'
    · exact h.langs l' (by rwa [hlang l' heq] at hl')
  · obtain ⟨hpath, hfits, text, t, hmade⟩ := h.bindings b hb
    exact ⟨hpath, hfits, text, t, (FileTree.made_congr (hshort _)).trans hmade⟩

/-- The loop over the bindings, in a configuration that holds nothing else. -/
lemma rmAllBindings_underway (hM : Obliging M cfg) (hnames : KeysNodup Binding.name c.bindings)
    (h : Underway cfg T c.dir c.bindings w) :
    Ends (fun _ s => s.2 = { c with bindings := [] } ∧ Underway cfg T c.dir [] s.1) (fun _ _ => False) False
      (rmAllBindings M.kernel (w, c)) := by
  rw [rmAllBindings, self_bind_apply]
  dsimp only
  have key : ∀ (bs : List Binding) (w : World Fs), KeysNodup Binding.name bs → Underway cfg T c.dir bs w →
      Ends (fun _ s => s.2 = { c with bindings := [] } ∧ Underway cfg T c.dir [] s.1) (fun _ _ => False) False
        (forEach (usbgRmBinding M.kernel) bs (w, { c with bindings := bs })) := by
    intro bs
    induction bs with
    | nil => exact fun w _ h => ⟨rfl, h⟩
    | cons b bs ih =>
      intro w hnames h
      obtain ⟨hpath, hfits, text, t, hmade⟩ := h.bindings b List.mem_cons_self
      have hlink := (FileTree.made_eq_some.mp hmade).1
      have hclean := h.shaped.clean hlink (by simp)
      rw [forEach_cons]
      refine Ends.bind (R := fun _ s => s.2 = { c with bindings := bs } ∧ Underway cfg T c.dir bs s.1) ?_ ?_
      · rw [usbgRmBinding, self_bind_apply]
        dsimp only
        rw [if_pos List.mem_cons_self]
        refine Ends.bind (R := fun _ s => s.2 = { c with bindings := b :: bs } ∧ Underway cfg T c.dir bs s.1)
          (ends_io ((usbgRmFile_ok (hM.unlink _) (by rw [hpath]) hclean hfits hlink).mono
            (fun _ _ ht => ⟨rfl, h.unlink hnames ht⟩) fun _ _ hf => hf)) ?_
        rintro - ⟨w', c'⟩ ⟨hc', hunder⟩
        obtain rfl : c' = _ := hc'
        show { c with bindings := (b :: bs).erase b } = { c with bindings := bs } ∧ _
        rw [List.erase_cons_head]
        exact ⟨rfl, hunder⟩
      · rintro - ⟨w', c'⟩ ⟨hc', hunder⟩
        obtain rfl : c' = _ := hc'
        exact ih w' (List.nodup_cons.mp hnames).2 hunder
  exact key c.bindings w hnames h

/-- Whatever else there is, the loop over the bindings has a meaning. -/
lemma rmAllBindings_defined : Ends (fun _ s => ∃ bs, s.2 = { c with bindings := bs })
    (fun _ s => ∃ bs, s.2 = { c with bindings := bs }) False (rmAllBindings M.kernel (w, c)) := by
  rw [rmAllBindings, self_bind_apply]
  dsimp only
  have key : ∀ (bs : List Binding) (w : World Fs), Ends (fun _ s => ∃ bs, s.2 = { c with bindings := bs })
      (fun _ s => ∃ bs, s.2 = { c with bindings := bs }) False
      (forEach (usbgRmBinding M.kernel) bs (w, { c with bindings := bs })) := by
    intro bs
    induction bs with
    | nil => exact fun w => ⟨[], rfl⟩
    | cons b bs ih =>
      intro w
      rw [forEach_cons]
      refine Ends.bind ((usbgRmBinding_ends (c := { c with bindings := b :: bs }) List.mem_cons_self).mono
        (fun _ _ hs => hs.1) fun _ s hs => ⟨b :: bs, hs.1⟩) ?_
      rintro - ⟨w', c'⟩ hc'
      obtain rfl : c' = _ := hc'
      rw [List.erase_cons_head]
      exact ih w'
  exact key c.bindings w

/-- The loop over the languages. -/
lemma usbgRmAllDirs_underway (hM : Obliging M cfg) (hd : d = [cfg, gadgetsDir, g.name, configsDir, x])
    (h : Underway cfg T d [] w) :
    Ends (fun _ w' => Underway cfg T d [] w' ∧ ∀ l, w'.tree.get (d ++ [stringsDir, l]) = none) (fun _ _ => False) False
      (usbgRmAllDirs M.kernel (d ++ [stringsDir]) w) := by
  have hclean : (d ++ [stringsDir]).Clean := h.shaped.clean h.strings (by simp)
  have hnode : ∀ {w' : World Fs} {l n}, Underway cfg T d [] w' → w'.tree.get (d ++ [stringsDir, l]) = some n →
      Machine.rmdir w'.tree (d ++ [stringsDir, l]) = .ok (w'.tree.prune (d ++ [stringsDir, l])) := by
    intro w' l n hw' hn
    rw [hd] at hn ⊢
    exact hw'.shaped.rmdir_configLang hn
  rw [usbgRmAllDirs]
  refine Ends.bind (R := fun names w' => Underway cfg T d [] w' ∧ names.Nodup ∧
    ∀ l, l ∈ names ↔ w'.tree.get (d ++ [stringsDir, l]) ≠ none) (ends_scandir ?_ ?_) ?_
  · intro w' ht _ _
    refine ⟨h.of_eq ht, (listing_pairwise _ _ _).imp fun hlt => ne_of_lt hlt, fun l => ?_⟩
    rw [mem_listing, hclean.2, ht, List.append_assoc, List.singleton_append]
    constructor
    · rintro ⟨n, hn, -⟩
      rw [hn]
      simp
    · intro hne
      obtain ⟨n, hn⟩ := Option.ne_none_iff_exists'.mp hne
      -- the names in the tree are not those that the library leaves out
      have hproper := h.shaped.names _ _ hn l (by rw [hd]; simp)
      exact ⟨n, hn, decide_eq_true ⟨hproper.2.1, hproper.2.2.1⟩⟩
  · intro e w' hwhy _ _
    refine (hwhy (hM.scandir _)).1 ?_
    rw [hclean.2]
    exact FileTree.isDir_iff.mpr ⟨false, h.strings⟩
  · rintro names w' ⟨hunder, hnodup, hmem⟩
    have key : ∀ (names : List CStr) (w' : World Fs), Underway cfg T d [] w' → names.Nodup →
        (∀ l, l ∈ names ↔ w'.tree.get (d ++ [stringsDir, l]) ≠ none) →
        Ends (fun _ w' => Underway cfg T d [] w' ∧ ∀ l, w'.tree.get (d ++ [stringsDir, l]) = none) (fun _ _ => False) False
          (forEach (usbgRmDir M.kernel (d ++ [stringsDir])) names w') := by
      intro names
      induction names with
      | nil => exact fun w' hunder _ hmem => ⟨hunder, fun l => by simpa using hmem l⟩
      | cons l names ih =>
        intro w' hunder hnodup hmem
        obtain ⟨n, hn⟩ := Option.ne_none_iff_exists'.mp ((hmem l).mp List.mem_cons_self)
        have hfits := hunder.langs l (by rw [hn]; simp)
        rw [forEach_cons]
        refine Ends.bind (usbgRmDir_ok (hM.rmdir _) (by simp) (hunder.shaped.clean hn (by simp)) hfits (hnode hunder hn))
          fun _ w'' ht => ?_
        obtain ⟨hnodup, hnames⟩ := List.nodup_cons.mp hnodup
        obtain ⟨hunder', hself, hother⟩ := hunder.rmLang ht
        refine ih w'' hunder' hnames fun l' => ?_
        by_cases heq : l' = l
        · exact iff_of_false (heq ▸ hnodup) fun hne => hne (heq ▸ hself)
        · rw [hother l' heq, ← hmem l', List.mem_cons]
          exact (or_iff_right heq).symm
    exact key names w' hunder hnodup hmem

/-- The configuration can be removed, and everything is as it was before it was made. -/
lemma usbgRmDir_underway (hM : Obliging M cfg) (hlinks : LinksAlive T) (hrooted : Rooted T)
    (hc : c.dir = [cfg, gadgetsDir, g.name, configsDir, x]) (hfree : T.get c.dir = none) (hfits : c.dir.Fits)
    (h : Underway cfg T c.dir [] w) (hlangs : ∀ l, w.tree.get (c.dir ++ [stringsDir, l]) = none) :
    Ends (fun _ w' => w'.tree.Same T) (fun _ _ => False) False (usbgRmDir M.kernel c.path c.name w) := by
  have hnot : ¬ T.IsDir c.dir := by
    rw [FileTree.IsDir, hfree]
    simp
  have hrm : Machine.rmdir w.tree c.dir = .ok (w.tree.prune c.dir) := by
    have hdir := h.dir
    have hcomplete : ∀ y, w.tree.made (c.dir ++ [y]) = none := by
      intro y
      by_contra hne
      obtain ⟨b, hb, -⟩ := h.complete y hne
      cases hb
    have hout : ∀ y, w.tree.get [cfg, gadgetsDir, g.name, osDescDir, y] = T.get [cfg, gadgetsDir, g.name, osDescDir, y] := by
      refine fun y => h.outside _ fun hpre => ?_
      rw [hc] at hpre
      simp at hpre
    rw [hc] at hdir hcomplete hlangs hnot ⊢
    refine h.shaped.rmdir_config hdir hcomplete hlangs fun y text hl => ?_
    -- there was no link to the configuration before it was made
    rw [hout] at hl
    exact hnot (hlinks _ _ _ hl)
  refine (usbgRmDir_ok (hM.rmdir _) rfl (h.shaped.clean h.dir (by simp)) hfits hrm).mono (fun _ w' ht q => ?_)
    fun _ _ hf => hf
  rw [ht, FileTree.get_prune]
  by_cases hq : c.dir <+: q
  · rw [if_pos hq]
    by_cases heq : c.dir = q
    · rw [← heq, hfree]
    · exact (hrooted.get_of_not_isDir hnot (by simp [Config.dir]) hq heq).symm
  · rw [if_neg hq]
    exact h.outside q hq

/-- A configuration that is looked up where it is. -/
lemma usbgRmConfig_withConfig (K : Kernel Fs) (hapart : Apart pre c post) (hos : g.osDescBinding ≠ some c.addr) :
    usbgRmConfig K c.addr true (w, g.withConfig pre c post) =
      (onConfig c.addr (rmAllBindings K) >>= fun _ =>
        (require (c.path ++ [c.name, stringsDir]).Fits .pathTooLong >>= fun _ =>
          io (usbgRmAllDirs K (c.path ++ [c.name, stringsDir]))) >>= fun _ =>
        io (usbgRmDir K c.path c.name) >>= fun _ =>
          update fun g => { g with configs := g.configs.filter (·.addr ≠ c.addr) }) (w, g.withConfig pre c post) := by
  have hos' : ¬ (g.withConfig pre c post).osDescBinding = some c.addr := hos
  rw [usbgRmConfig, self_bind_apply]
  dsimp only
  rw [hapart.config?, deref_some, pure_bind, when_of rfl, rmConfigContent, bind_apply, self_bind_apply,
    when_of_not hos', pure_bind, ← bind_apply, Prog.bind_assoc]

/-- The clean-up of an import during which no function has been made. -/
lemma usbgRmConfig_populated (hM : Obliging M cfg) (hlinks : LinksAlive T) (hrooted : Rooted T)
    (hapart : Apart pre c post) (hos : g.osDescBinding ≠ some c.addr) (hg : g.configs = pre ++ post)
    (hc : c.dir = [cfg, gadgetsDir, g.name, configsDir, x]) (hfree : T.get c.dir = none) (hfits : c.dir.Fits)
    (hs : Populated cfg T g pre c post (w, g')) :
    Ends (fun _ s => s.2 = g ∧ s.1.tree.Same T ∧ (c.dir ++ [stringsDir]).Fits)
      (fun _ s => s.2.configs ≠ g.configs ∧ ¬ (c.dir ++ [stringsDir]).Fits) False
      (usbgRmConfig M.kernel c.addr true (w, g')) := by
  obtain ⟨bs, hg', hnames, hunder⟩ := hs
  obtain rfl : g' = _ := hg'
  have hapart' : ∀ bs, Apart pre { c with bindings := bs } post := fun bs => ⟨hapart.before, hapart.behind⟩
  have hpath : c.path ++ [c.name, stringsDir] = c.dir ++ [stringsDir] := by
    rw [Config.dir, List.append_assoc]
    rfl
  have hrun := usbgRmConfig_withConfig (w := w) (g := g) M.kernel (hapart' bs) hos
  dsimp only at hrun
  rw [hrun, hpath]
  -- the bindings are removed in any case, the strings only if their path fits
  refine Ends.bind (R := fun _ s => s.2 = g.withConfig pre { c with bindings := [] } post ∧ Underway cfg T c.dir [] s.1)
    (ends_onConfig (hapart' bs).config? ((rmAllBindings_underway (c := { c with bindings := bs }) hM hnames hunder).mono
      ?_ fun _ _ hf => hf.elim)) ?_
  · rintro - ⟨w', c'⟩ ⟨hc', hunder'⟩
    obtain rfl : c' = _ := hc'
    exact ⟨(hapart' bs).setConfig rfl, hunder'⟩
  · rintro - ⟨w', g'⟩ ⟨hg', hunder'⟩
    obtain rfl : g' = _ := hg'
    refine Ends.bind_then (Ends.require_bind (fun hfits' => ends_io ((usbgRmAllDirs_underway hM hc hunder').mono ?_
      fun _ _ hf => hf.elim)) fun hfits' => ⟨?_, hfits'⟩)
    · rintro - w'' ⟨hunder'', hlangs⟩
      refine Ends.bind_then (ends_io ((usbgRmDir_underway hM hlinks hrooted hc hfree hfits hunder'' hlangs).mono ?_
        fun _ _ hf => hf.elim))
      intro _ w₃ hsame
      refine ⟨?_, hsame, hfits'⟩
      show { g with configs := (pre ++ { c with bindings := [] } :: post).filter (·.addr ≠ c.addr) } = g
      rw [(hapart' []).filter, ← hg]
    · -- the configuration is still in the list
      intro heq
      have hlen := congrArg List.length heq
      rw [hg, Gadget.withConfig] at hlen
      simp at hlen

/-- After a function has been made the clean-up does not touch it. -/
lemma usbgRmConfig_enlarged (hapart : Apart pre c post) (hos : g.osDescBinding ≠ some c.addr)
    (hs : Enlarged g pre c post (w, g')) :
    Ends (fun _ s => g.functions.length < s.2.functions.length) (fun _ s => g.functions.length < s.2.functions.length)
      False (usbgRmConfig M.kernel c.addr true (w, g')) := by
  obtain ⟨bs, fs, hg', -, hlen⟩ := hs
  have hapart' : Apart pre { c with bindings := bs } post := ⟨hapart.before, hapart.behind⟩
  have hrun := usbgRmConfig_withConfig (w := w) (g := { g with functions := fs }) M.kernel hapart' hos
  obtain rfl : g' = { g with functions := fs }.withConfig pre { c with bindings := bs } post := hg'
  dsimp only at hrun
  rw [hrun]
  have hkeeps : ∀ {α : Type} {m : Io Fs α} {s : World Fs × Gadget}, Defined m → g.functions.length < s.2.functions.length →
      Ends (fun (_ : α) (s : World Fs × Gadget) => g.functions.length < s.2.functions.length)
        (fun _ s => g.functions.length < s.2.functions.length) False (io m s) := by
    intro α m s hm hs
    refine ends_io_run (fun _ _ _ => hs) (fun _ _ _ => hs) fun w' hundef => hm s.1 ?_
    rw [hundef]
  refine Ends.bind (R := fun _ s => g.functions.length < s.2.functions.length)
    (ends_onConfig hapart'.config? (rmAllBindings_defined.mono (fun _ _ _ => hlen) fun _ _ _ => hlen)) ?_
  intro _ s hs
  refine Ends.bind (Ends.require_bind (fun _ => hkeeps ?_ hs) fun _ => hs) fun _ s hs => ?_
  · exact .bind defined_scandir fun _ => .forEach fun _ _ => defined_usbgRmDir
  · exact Ends.bind (hkeeps defined_usbgRmDir hs) fun _ s hs => hs

end Removal

/-! ## The creation -/

namespace Importing

lemma dir_eq (h : Importing cfg w g) : g.dir = [cfg, gadgetsDir, g.name] := by
  rw [Gadget.dir, h.path]
  rfl

lemma clean (h : Importing cfg w g) : g.dir.Clean := by
  obtain ⟨made, hdir⟩ := FileTree.isDir_iff.mp h.dir
  exact h.shaped.clean hdir (by rw [h.dir_eq]; simp)

/-- A configuration that has just been made. -/
lemma underway (hM : Obliging M cfg) (h : Importing cfg w g) {name : CStr} (hfree : w.tree.get (g.dir ++ [configsDir, name]) = none)
    (hch : Change M w.tree (.mkdir (g.dir ++ [configsDir, name])) w'.tree)
    (hok : w'.tree = w.tree.addAll (M.newDir (g.dir ++ [configsDir, name]))) (hname : name ≠ []) :
    Underway cfg w.tree (g.dir ++ [configsDir, name]) [] w' := by
  have hclean : (g.dir ++ [configsDir, name]).Clean := h.clean.append (by simp [hname])
  have hshaped := h.shaped.change hM.configfs hch
  have hnot : ¬ w.tree.IsDir (g.dir ++ [configsDir, name]) := by
    rw [FileTree.IsDir, hfree]
    simp
  -- what the kernel has put into the directory was not made by the user
  have hbare : ∀ r n, r ≠ [] → w'.tree.get (g.dir ++ [configsDir, name] ++ r) = some n → n.made = false := by
    intro r n hr hn
    by_contra hmade
    rw [hok] at hn
    have hold := made_newDir hn (by simpa using hmade) (by simpa using hr)
    rw [h.shaped.parents.get_of_not_isDir hnot (by simp) (List.prefix_append ..) (by simpa using hr.symm)] at hold
    cases hold
  refine
    { shaped := hshaped
      outside := hch.outside (by show _ <+: (g.dir ++ [configsDir, name]).resolve; rw [hclean.2])
      dir := by rw [hok, get_newDir_self hfree]
      strings := ?_
      langs := fun l hl => ?_
      complete := fun y hy => ?_
      bindings := by simp }
  · rw [hok]
    refine get_newDir_group hM.configfs h.shaped.parents hfree (by simp) (c := none) ?_
    rw [h.dir_eq]
    exact hM.strings g.name name
  · obtain ⟨n, hn⟩ := Option.ne_none_iff_exists'.mp hl
    have hmade := hbare _ n (by simp) hn
    rw [h.dir_eq] at hn
    rw [hshaped.get_userPlace (r := [configsDir, name, stringsDir, l]) ⟨rfl, rfl⟩ hn] at hmade
    cases hmade
  · obtain ⟨n, hn⟩ := Option.ne_none_iff_exists'.mp hy
    obtain ⟨hn, hmade⟩ := FileTree.made_eq_some.mp hn
    rw [hbare _ n (by simp) hn] at hmade
    cases hmade

/-- `usbg_create_config`, as the import of a configuration calls it. -/
lemma usbgCreateConfig_populated (hM : Obliging M cfg) (h : Importing cfg w g) (id : ℤ) (name : CStr) :
    Ends (fun a t => a = w.next ∧ ∃ pre post, g.configs = pre ++ post ∧
        Populated cfg w.tree g pre (newConfig g id (some name) w.next) post t ∧
        w.tree.get (g.dir ++ [configsDir, configName name id]) = none ∧ (g.dir ++ [configsDir, configName name id]).Fits)
      (fun _ t => t.1.tree = w.tree ∧ t.2 = g) False (usbgCreateConfig M.kernel id (some name) none none (w, g)) := by
  rw [usbgCreateConfig]
  refine Ends.require_bind (fun _ => ?_) fun _ => ⟨rfl, rfl⟩
  rw [self_bind_apply]
  refine Ends.require_bind (fun _ => ?_) fun _ => ⟨rfl, rfl⟩
  refine Ends.require_bind (fun _ => ?_) fun _ => ⟨rfl, rfl⟩
  have halloc : usbgAllocateConfig (g.path ++ [g.name, configsDir]) name id w =
    (.ok (newConfig g id (some name) w.next), { w with next := w.next + 1 }) := rfl
  refine Ends.of_eq (bind_ok (io_ok halloc)) ?_
  refine Ends.require_bind (fun hfits => ?_) fun _ => ⟨rfl, rfl⟩
  have hpath : g.path ++ [g.name, configsDir] ++ [(newConfig g id (some name) w.next).name] =
      g.dir ++ [configsDir, configName name id] := by simp [newConfig, Gadget.dir]
  have hname : configName name id ≠ [] := by simp [configName]
  have hclean : (g.dir ++ [configsDir, configName name id]).Clean := h.clean.append (by simp [hname])
  rw [hpath] at hfits ⊢
  refine Ends.bind (R := fun _ t => t.2 = g ∧ Underway cfg w.tree (g.dir ++ [configsDir, configName name id]) [] t.1 ∧
    w.tree.get (g.dir ++ [configsDir, configName name id]) = none) (ends_io ?_) ?_
  · have hch := kernel_change M (.mkdir (g.dir ++ [configsDir, configName name id])) { w with next := w.next + 1 }
    rcases M.call_cases (.mkdir (g.dir ++ [configsDir, configName name id])) { w with next := w.next + 1 } with
      ⟨e, w', hw, -, ht, -⟩ | ⟨u, w', hw, hexec, -⟩
    · rw [hw]
      exact ⟨ht, rfl⟩
    · have hw' : w' = (call M.kernel (.mkdir (g.dir ++ [configsDir, configName name id]))
        { w with next := w.next + 1 }).2 := by rw [hw]
      obtain ⟨hfree, -, -, ht⟩ := mkdir_eq_ok.mp (exec_mkdir.mp hexec)
      rw [hclean.2] at hfree ht
      rw [hw]
      exact ⟨rfl, h.underway hM hfree (hw' ▸ hch) ht hname, hfree⟩
  · rintro - ⟨w', g'⟩ ⟨hg', hunder, hfree⟩
    obtain rfl : g' = g := hg'
    obtain ⟨pre, post, hsplit, hinsert⟩ := insertSorted_split Config.name (newConfig g' id (some name) w.next) g'.configs
    refine ⟨rfl, pre, post, hsplit, ⟨[], ?_, List.nodup_nil, ?_⟩, hfree, hfits⟩
    · show { g' with configs := insertSorted Config.name (newConfig g' id (some name) w.next) g'.configs } = _
      rw [hinsert]
      rfl
    · rw [show (newConfig g' id (some name) w.next).dir = g'.dir ++ [configsDir, configName name id] by
        simp [newConfig, Config.dir, Gadget.dir]]
      exact hunder

end Importing

/-! ## Whole imports -/

namespace AsBefore

lemma refl (t : World Fs × Gadget) : AsBefore t t := ⟨fun _ => rfl, rfl⟩

lemma of_eq {t t' : World Fs × Gadget} (ht : t'.1.tree = t.1.tree) (hg : t'.2 = t.2) : AsBefore t t' :=
  ⟨fun _ => by rw [ht], by rw [hg]; rfl⟩

lemma functions {t t' : World Fs × Gadget} (h : AsBefore t t') : t'.2.functions = t.2.functions := by
  rw [h.gadget]
  rfl

lemma configs {t t' : World Fs × Gadget} (h : AsBefore t t') : t'.2.configs = t.2.configs := by
  rw [h.gadget]
  rfl

/-- The record may be written again. -/
lemma record_iff {t : World Fs × Gadget} {r : Option ConfigFile} :
    AsBefore t (w', g'.setFailedImport r) ↔ AsBefore t (w', g') := by
  constructor
  · rintro ⟨htree, hg⟩
    refine ⟨htree, ?_⟩
    have hback := congrArg (Gadget.setFailedImport g'.lastFailedImport) hg
    exact hback
  · rintro ⟨htree, hg⟩
    refine ⟨htree, ?_⟩
    have hback := congrArg (Gadget.setFailedImport r) hg
    exact hback

end AsBefore

/-- The frame of an import adds nothing but the record. -/
lemma importFile_atomic_iff {run : Setting → On Fs Gadget Addr} {file : ConfigFile} {t : World Fs × Gadget} :
    ImportAtomic (importFile Gadget.setFailedImport run file) t ↔
      ∀ root, file = .parsed root → ImportAtomic (run root) t := by
  obtain ⟨w, g⟩ := t
  cases file with
  | failed text line =>
    refine iff_of_true ?_ fun root h => by cases h
    rintro e t' hrun
    obtain rfl : (w, g.setFailedImport (some (.failed text line))) = t' := (Prod.mk.inj hrun).2
    exact AsBefore.record_iff.mpr (.refl _)
  | parsed root =>
    have hfail : ∀ e t', importFile Gadget.setFailedImport run (.parsed root) (w, g) = (.fail e, t') ↔
        ∃ t₁, run root (w, g) = (.fail e, t₁) ∧ t' = (t₁.1, t₁.2.setFailedImport (some (.parsed root))) := by
      intro e t'
      rw [importFile]
      rcases hr : run root (w, g) with ⟨a | e' | _, t₁⟩
      · rw [bind_ok (attempt_ok hr)]
        simp
      · rw [bind_ok (attempt_fail hr)]
        simp only [update_bind_apply, fail_apply, Prod.mk.injEq, Outcome.fail.injEq]
        constructor
        · rintro ⟨rfl, rfl⟩
          exact ⟨t₁, ⟨rfl, rfl⟩, rfl⟩
        · rintro ⟨t₂, ⟨rfl, rfl⟩, rfl⟩
          exact ⟨rfl, rfl⟩
      · have hundef : attempt (run root) (w, g) = (.undef, t₁) := by rw [attempt_apply, hr]
        rw [bind_undef hundef]
        simp
    constructor
    · rintro h root' ⟨⟩ e t' hrun
      exact AsBefore.record_iff.mp (h e _ ((hfail e _).mpr ⟨t', hrun, rfl⟩))
    · intro h e t' hrun
      obtain ⟨t₁, hrun₁, rfl⟩ := (hfail e t').mp hrun
      exact AsBefore.record_iff.mpr (h root rfl e t₁ hrun₁)

/-- What is done with a function adds none. -/
lemma keeps_length_onFunction {n : ℕ} {α : Type} {m : On Fs Func α} :
    Keeps (fun s : World Fs × Gadget => n < s.2.functions.length) (onFunction a m) := by
  rintro ⟨w, g⟩ hs
  rw [onFunction]
  cases hf : g.function? a with
  | none =>
    rw [zoom_none (by rw [hf]; rfl)]
    exact hs
  | some f =>
    rw [zoom_some (by rw [hf]; rfl)]
    show n < (g.functions.map _).length
    rwa [List.length_map]

/-- Which sections are rejected shows after the function has been made. -/
lemma functionRejected_iff {root : Setting} {inst : CStr} {type : FunctionType} {t t₁ : World Fs × Gadget}
    (htype : schemeType root = some type) (hmade : usbgCreateFunction M.kernel ops type inst none t = (.ok a, t₁)) :
    FunctionRejected M.kernel ops root inst t ↔ ∃ e t₂, importFunctionContent M.kernel ops root a t₁ = (.fail e, t₂) := by
  constructor
  · rintro ⟨type', a', t₁', e, t₂, htype', hmade', hcontent⟩
    obtain rfl : type = type' := Option.some.inj (htype.symm.trans htype')
    rw [hmade] at hmade'
    obtain ⟨rfl, rfl⟩ : a = a' ∧ t₁ = t₁' := by simpa using hmade'
    exact ⟨e, t₂, hcontent⟩
  · rintro ⟨e, t₂, hcontent⟩
    exact ⟨type, a, t₁, e, t₂, htype, hmade, hcontent⟩

/-- The import of a function. -/
lemma functionImport_atomic_iff {root : Setting} {inst : CStr} :
    ImportAtomic (usbgImportFunctionRun M.kernel ops root inst) (w, g) ↔
      ¬ FunctionRejected M.kernel ops root inst (w, g) := by
  cases htype : schemeType root with
  | none =>
    obtain ⟨e, he⟩ := usbgImportFunctionRun_of_none M.kernel ops inst htype
    refine iff_of_true ?_ ?_
    · intro e' t' hrun
      rw [he] at hrun
      obtain rfl : (w, g) = t' := (Prod.mk.inj hrun).2
      exact .refl _
    · rintro ⟨type, -, -, -, -, hsome, -⟩
      rw [htype] at hsome
      cases hsome
  | some type =>
    have hcreate := usbgCreateFunction_bare M ops w g type inst
    rw [ImportAtomic, usbgImportFunctionRun_eq M.kernel ops root inst htype]
    rcases hmade : usbgCreateFunction M.kernel ops type inst none (w, g) with ⟨a | e | _, t₁⟩ <;> rw [hmade] at hcreate
    · obtain ⟨f, hg⟩ := hcreate
      have hlen : g.functions.length < t₁.2.functions.length := by
        rw [hg]
        show _ < (insertSorted Func.name f g.functions).length
        rw [insertSorted_perm.length_eq, List.length_cons]
        omega
      have hkeeps : Keeps (fun s : World Fs × Gadget => g.functions.length < s.2.functions.length)
          (importFunctionContent M.kernel ops root a) :=
        .bind (.whenSome fun _ _ => keeps_length_onFunction) fun _ => .whenSome fun _ _ => keeps_length_onFunction
      have hlen₂ := hkeeps t₁ hlen
      rw [bind_ok hmade, functionRejected_iff htype hmade]
      rcases hcontent : importFunctionContent M.kernel ops root a t₁ with ⟨_ | e | _, t₂⟩
      · rw [bind_ok hcontent]
        simp
      · -- the function is still there
        rw [hcontent] at hlen₂
        refine iff_of_false (fun h => ?_) fun h => h ⟨e, t₂, rfl⟩
        rw [(h e t₂ (bind_fail hcontent)).functions] at hlen₂
        exact lt_irrefl _ hlen₂
      · rw [bind_undef hcontent]
        simp
    · rw [bind_fail hmade]
      refine iff_of_true (fun e' t' hrun => ?_) ?_
      · obtain rfl : t₁ = t' := (Prod.mk.inj hrun).2
        exact .of_eq hcreate.1 hcreate.2
      · rintro ⟨type', a, t₁', e, t₂, htype', hmade', -⟩
        obtain rfl : type = type' := Option.some.inj (htype.symm.trans htype')
        rw [hmade] at hmade'
        cases hmade'
    · exact hcreate.elim

lemma usbgImportConfigRun_eq {κ : Type} (K : Kernel κ) (ops : FunctionType → FunctionOps κ) (root : Setting) (id : ℤ)
    {name : CStr} (h : schemeName root = some name) :
    usbgImportConfigRun K ops root id = usbgCreateConfig K id (some name) none none >>= fun newc =>
      onFail (importConfigContent K ops root newc) (usbgRmConfig K newc true) >>= fun _ => pure newc := by
  obtain ⟨node, hnode, hname⟩ := Option.bind_eq_some_iff.mp h
  rw [usbgImportConfigRun, hnode]
  dsimp only
  rw [hname]

lemma usbgImportConfigRun_of_none {κ : Type} (K : Kernel κ) (ops : FunctionType → FunctionOps κ) {root : Setting}
    (id : ℤ) (h : schemeName root = none) : ∃ e, usbgImportConfigRun K ops root id = fail e := by
  rw [usbgImportConfigRun]
  rw [schemeName] at h
  cases hnode : root.getMember "name".toList with
  | none => exact ⟨_, rfl⟩
  | some node =>
    dsimp only
    rw [hnode, Option.bind_some] at h
    rw [h]
    exact ⟨_, rfl⟩

lemma configRejected_iff {root : Setting} {id : ℤ} {name : CStr} {t t₁ : World Fs × Gadget} {P : CStr → Gadget → Prop}
    (hname : schemeName root = some name) (hmade : usbgCreateConfig M.kernel id (some name) none none t = (.ok a, t₁)) :
    (∀ name g', ConfigRejected M.kernel ops root id t name g' → P name g') ↔
      ∀ e t₂, importConfigContent M.kernel ops root a t₁ = (.fail e, t₂) → P name t₂.2 := by
  constructor
  · intro h e t₂ hcontent
    exact h name t₂.2 ⟨a, t₁, e, t₂.1, hname, hmade, hcontent⟩
  · rintro h name' g' ⟨a', t₁', e, w', hname', hmade', hcontent⟩
    obtain rfl : name = name' := Option.some.inj (hname.symm.trans hname')
    rw [hmade] at hmade'
    obtain ⟨rfl, rfl⟩ : a = a' ∧ t₁ = t₁' := by simpa using hmade'
    exact h e (w', g') hcontent

/-- The clean-up restores everything if and only if nothing is left of the import. -/
lemma Importing.cleanUp (hM : Obliging M cfg) (h : Importing cfg w g) {id : ℤ} {name : CStr} (hg : g.configs = pre ++ post)
    (hapart : Apart pre (newConfig g id (some name) w.next) post)
    (hfree : w.tree.get (g.dir ++ [configsDir, configName name id]) = none)
    (hfits : (g.dir ++ [configsDir, configName name id]).Fits)
    (hs : InProgress cfg w.tree g pre (newConfig g id (some name) w.next) post (w', g')) :
    Ends (fun _ s => AsBefore (w, g) s ↔ LeavesNothing g id name g') (fun _ s => AsBefore (w, g) s ↔ LeavesNothing g id name g')
      False (usbgRmConfig M.kernel w.next true (w', g')) := by
  have hcdir : (newConfig g id (some name) w.next).dir = g.dir ++ [configsDir, configName name id] := by
    simp [newConfig, Config.dir, Gadget.dir]
  have hcdir' : (newConfig g id (some name) w.next).dir = [cfg, gadgetsDir, g.name, configsDir, configName name id] := by
    rw [hcdir, h.dir_eq]
    rfl
  have hstrings : (newConfig g id (some name) w.next).dir ++ [stringsDir] = configStrings g name id := by
    rw [hcdir, configStrings, List.append_assoc]
    rfl
  have hos : g.osDescBinding ≠ some w.next := fun hos => lt_irrefl _ (h.freshOs _ hos)
  rw [← hcdir] at hfree hfits
  -- either a function has been added to the gadget, which the clean-up does not remove, or none has
  rcases hs with hs | hs
  · have hlonger : g.functions.length < g'.functions.length := by
      obtain ⟨bs, fs, rfl, -, hlen⟩ := hs
      exact hlen
    have hnot : ¬ LeavesNothing g id name g' := fun hleaves => by
      rw [hleaves.1] at hlonger
      exact lt_irrefl _ hlonger
    have hgrown : ∀ s : World Fs × Gadget, g.functions.length < s.2.functions.length →
        (AsBefore (w, g) s ↔ LeavesNothing g id name g') := by
      refine fun s hlen => iff_of_false (fun hbefore => ?_) hnot
      rw [hbefore.functions] at hlen
      exact lt_irrefl _ hlen
    exact (usbgRmConfig_enlarged hapart hos hs).mono (fun _ s => hgrown s) fun _ s => hgrown s
  · have hsame : g'.functions = g.functions := by
      obtain ⟨bs, rfl, -⟩ := hs
      rfl
    refine (usbgRmConfig_populated hM h.links h.shaped.parents hapart hos hg hcdir' hfree hfits hs).mono ?_ ?_
    · rintro - s ⟨hsg, htree, hstr⟩
      refine iff_of_true ⟨htree, ?_⟩ ⟨hsame, hstrings ▸ hstr⟩
      rw [hsg]
      rfl
    · rintro - s ⟨hne, hstr⟩
      exact iff_of_false (fun hbefore => hne hbefore.configs) fun hleaves => hstr (hstrings ▸ hleaves.2)

/-- The import of a configuration. -/
lemma configImport_atomic_iff (hM : Obliging M cfg) (h : Importing cfg w g) {root : Setting} {id : ℤ} :
    ImportAtomic (usbgImportConfigRun M.kernel ops root id) (w, g) ↔
      ∀ name g', ConfigRejected M.kernel ops root id (w, g) name g' → LeavesNothing g id name g' := by
  -- without a name nothing is made
  cases hname : schemeName root with
  | none =>
    obtain ⟨e, he⟩ := usbgImportConfigRun_of_none M.kernel ops id hname
    refine iff_of_true ?_ ?_
    · intro e' t' hrun
      rw [he] at hrun
      obtain rfl : (w, g) = t' := (Prod.mk.inj hrun).2
      exact .refl _
    · rintro name g' ⟨-, -, -, -, hsome, -⟩
      rw [hname] at hsome
      cases hsome
  | some name =>
    have hcreate := h.usbgCreateConfig_populated hM id name
    rw [ImportAtomic, usbgImportConfigRun_eq M.kernel ops root id hname]
    rcases hmade : usbgCreateConfig M.kernel id (some name) none none (w, g) with ⟨a | e | _, w₁, g₁⟩ <;>
      rw [hmade] at hcreate
    · obtain ⟨rfl, pre, post, hg, hpopulated, hfree, hfits⟩ := hcreate
      rw [bind_ok hmade, configRejected_iff hname hmade]
      have hapart : Apart pre (newConfig g id (some name) w.next) post :=
        ⟨fun c hc => ne_of_lt (h.fresh c (by rw [hg]; simp [hc])), fun c hc => ne_of_lt (h.fresh c (by rw [hg]; simp [hc]))⟩
      have hdclean : (newConfig g id (some name) w.next).dir.Clean := by
        rw [show (newConfig g id (some name) w.next).dir = g.dir ++ [configsDir, configName name id] by
          simp [newConfig, Config.dir, Gadget.dir]]
        exact h.clean.append (by simp [configName])
      have hcontent : Ends (fun _ => InProgress cfg w.tree g pre (newConfig g id (some name) w.next) post)
          (fun _ => InProgress cfg w.tree g pre (newConfig g id (some name) w.next) post) True
          (importConfigContent M.kernel ops root w.next (w₁, g₁)) :=
        importConfigContent_inProgress hM.configfs hdclean hapart hpopulated
      rcases hrun : importConfigContent M.kernel ops root w.next (w₁, g₁) with ⟨_ | e | _, w₂, g₂⟩
      · rw [bind_ok (onFail_ok hrun)]
        simp
      · rw [hrun] at hcontent
        -- the content has failed: what is left is what the clean-up leaves
        have hclean := h.cleanUp hM hg hapart hfree hfits hcontent
        rw [bind_fail (onFail_fail hrun hclean.defined)]
        have hend : AsBefore (w, g) (usbgRmConfig M.kernel w.next true (w₂, g₂)).2 ↔ LeavesNothing g id name g₂ := by
          rcases hc : usbgRmConfig M.kernel w.next true (w₂, g₂) with ⟨_ | _ | _, t⟩ <;> rw [hc] at hclean
          · exact hclean
          · exact hclean
          · exact hclean.elim
        constructor
        · rintro hall e' t₂ ⟨rfl, rfl⟩
          exact hend.mp (hall e _ rfl)
        · rintro hall e' t' ⟨rfl, rfl⟩
          exact hend.mpr (hall e _ rfl)
      · have hundef : onFail (importConfigContent M.kernel ops root w.next) (usbgRmConfig M.kernel w.next true) (w₁, g₁) =
            (.undef, (w₂, g₂)) := by rw [onFail_apply, hrun]
        rw [bind_undef hundef]
        simp
    · rw [bind_fail hmade]
      refine iff_of_true (fun e' t' hrun => ?_) ?_
      · obtain rfl : (w₁, g₁) = t' := (Prod.mk.inj hrun).2
        exact .of_eq hcreate.1 hcreate.2
      · rintro name' g' ⟨a, t₁', e, w', hname', hmade', -⟩
        obtain rfl : name = name' := Option.some.inj (hname.symm.trans hname')
        rw [hmade] at hmade'
        cases hmade'
    · exact hcreate.elim

/-- An import into a gadget that fails leaves everything as it was if and only if, when a section of the scheme is
rejected, no function has been made; and, for a configuration, the path to its strings can be removed. -/
theorem importAtomic_iff (M : Machine) (cfg : CStr) (w : World Fs) (g : Gadget) (hM : Obliging M cfg)
    (h : Importing cfg w g) (file : ConfigFile) :
    (∀ inst, ImportAtomic (usbgImportFunction M.kernel (functionOps M.kernel) file inst) (w, g) ↔
        ∀ root, file = .parsed root → ¬ FunctionRejected M.kernel (functionOps M.kernel) root inst (w, g)) ∧
      ∀ id, ImportAtomic (usbgImportConfig M.kernel (functionOps M.kernel) file id) (w, g) ↔
        ∀ root, file = .parsed root → ∀ name g', ConfigRejected M.kernel (functionOps M.kernel) root id (w, g) name g' →
          LeavesNothing g id name g' := by
  refine ⟨fun inst => importFile_atomic_iff.trans (forall₂_congr fun root _ => functionImport_atomic_iff), fun id => ?_⟩
  by_cases hid : 0 ≤ id
  · rw [show usbgImportConfig M.kernel (functionOps M.kernel) file id = importFile Gadget.setFailedImport
      (fun root => usbgImportConfigRun M.kernel (functionOps M.kernel) root id) file by
        rw [usbgImportConfig, require_of hid, pure_bind]]
    exact importFile_atomic_iff.trans (forall₂_congr fun root _ => configImport_atomic_iff hM h)
  · -- such a number is refused at once
    refine iff_of_true ?_ ?_
    · intro e t' hrun
      rw [usbgImportConfig, require_of_not hid] at hrun
      obtain rfl : (w, g) = t' := (Prod.mk.inj hrun).2
      exact .refl _
    · rintro root - name g' ⟨a, t₁, e, w', -, hmade, -⟩
      rw [usbgCreateConfig, require_of_not (fun hpos => hid (le_of_lt hpos.1))] at hmade
      cases hmade

/-! ## A kernel, and two schemes -/

/-- What configfs puts into the directory of a gadget. -/
def gadgetGroups : List (Path × Option CStr) :=
  [([functionsDir], none), ([configsDir], none), ([stringsDir], none), ([osDescDir], none), ([udcFile], some ['\n'])]

/-- What configfs puts into the directory of a configuration. -/
def configGroups : List (Path × Option CStr) :=
  [([stringsDir], none), (["MaxPower".toList], some []), (["bmAttributes".toList], some [])]

/-- What configfs puts into a new directory. -/
def configfsGroups : Path → List (Path × Option CStr)
  | [_, _, _] => gadgetGroups
  | [_, _, _, x, _] => if x = configsDir then configGroups else []
  | _ => []

/-- A kernel that refuses nothing but what configfs refuses. -/
def configfsMachine (cfg : CStr) : Machine where
  groups := configfsGroups
  fault _ c :=
    match c with
    | .mkdir p =>
      if ∀ e ∈ ({ willing with groups := configfsGroups } : Machine).newDir p.resolve, NodeOk cfg e.1 e.2 then none
      else some .eperm
    | .symlink t p => if NodeOk cfg p.resolve (.link t.render t.resolve) then none else some .eperm
    | _ => none
  stale _ := []

/-- A list of groups with proper names, each directly in the new directory. -/
def PlainGroups (l : List (Path × Option CStr)) : Prop :=
  (l.map Prod.fst).Nodup ∧ ∀ e ∈ l, e.1.length = 1 ∧ ∀ x ∈ e.1, ProperName x

instance (l : List (Path × Option CStr)) : Decidable (PlainGroups l) := inferInstanceAs (Decidable (_ ∧ _))

lemma plainGroups_configfsGroups (p : Path) : PlainGroups (configfsGroups p) := by
  rw [configfsGroups.eq_def]
  split
  · decide
  · split <;> decide
  · decide

lemma configfs_configfsMachine (cfg : CStr) : Configfs (configfsMachine cfg) cfg where
  mkdirs n p h := by
    by_contra hnot
    have hfault : (configfsMachine cfg).fault n (.mkdir p) = some .eperm := if_neg hnot
    rw [h] at hfault
    cases hfault
  links n t p h := by
    by_contra hnot
    have hfault : (configfsMachine cfg).fault n (.symlink t p) = some .eperm := if_neg hnot
    rw [h] at hfault
    cases hfault
  nodup p := by
    obtain ⟨hnodup, hplain⟩ := plainGroups_configfsGroups p
    have hmap : ((configfsMachine cfg).newDir p).map Prod.fst = p :: ((configfsGroups p).map Prod.fst).map (p ++ ·) := by
      rw [newDir, List.map_cons, List.map_map, List.map_map]
      rfl
    rw [KeysNodup, hmap]
    refine List.nodup_cons.mpr ⟨fun hmem => ?_, hnodup.map fun _ _ => List.append_cancel_left⟩
    obtain ⟨r, hr, hpr⟩ := List.mem_map.mp hmem
    obtain ⟨e, he, rfl⟩ := List.mem_map.mp hr
    have hlen := (hplain e he).1
    rw [List.append_right_eq_self.mp hpr] at hlen
    cases hlen
  parents p r y c h := by
    have hlen := ((plainGroups_configfsGroups p).2 _ h).1
    simp at hlen
    exact .inl hlen
  names p e h := ((plainGroups_configfsGroups p).2 e h).2

lemma obliging_configfsMachine (cfg : CStr) : Obliging (configfsMachine cfg) cfg where
  configfs := configfs_configfsMachine cfg
  rmdir _ _ := rfl
  unlink _ _ := rfl
  scandir _ _ := rfl
  strings x c := by
    show _ ∈ configfsGroups [cfg, gadgetsDir, x, configsDir, c]
    rw [configfsGroups, if_pos rfl]
    exact List.mem_cons_self

/-- The tree with the directory of a gadget that has nothing in it. -/
def emptyGadgetTree : Tree :=
  FileTree.addAll .empty (((["/c".toList], .dir false) :: (["/c".toList, gadgetsDir], .dir false) ::
    (configfsMachine "/c".toList).newDir plainGadget.dir))

/-- The state of the system; the first address belongs to the gadget. -/
def emptyGadgetWorld : World Fs := { worldOf emptyGadgetTree with next := 1 }

lemma importing_emptyGadget : Importing "/c".toList emptyGadgetWorld plainGadget where
  shaped :=
    { parents := rooted_of_entries (by decide +kernel)
      names := fun q n hn => (by decide +kernel : ∀ e ∈ emptyGadgetTree.entries, ∀ x ∈ e.1.tail, ProperName x) _
        (FileTree.get_eq_some.mp hn)
      nodes := fun q n hn => (by decide +kernel : ∀ e ∈ emptyGadgetTree.entries, NodeOk "/c".toList e.1 e.2) _
        (FileTree.get_eq_some.mp hn) }
  links := linksAlive_of_entries (by decide +kernel)
  path := rfl
  dir := by decide +kernel
  fresh := by simp [plainGadget, Gadget.allocated]
  freshOs := by simp [plainGadget, Gadget.allocated]

/-- A function whose OS descriptors are no group. -/
def brokenFunction : Setting := .group [("type".toList, .string "acm".toList), ("os_descs".toList, .list [.int 1])]

/-- A configuration with a binding that defines a function, and one that is neither a name nor a group. -/
def brokenConfig : Setting :=
  .group [("name".toList, .string "c".toList), ("functions".toList, .list [
    .group [("function".toList, .group [("type".toList, .string "acm".toList), ("instance".toList, .string "0".toList)])],
    .int 1])]

/-- A configuration whose only binding is neither a name nor a group. -/
def brokenBinding : Setting := .group [("name".toList, .string "c".toList), ("functions".toList, .list [.int 1])]

/-- The binding is rejected, and no function has been made. -/
lemma leavesNothing_brokenBinding {name : CStr} (h : ConfigRejected (configfsMachine "/c".toList).kernel
      (functionOps (configfsMachine "/c".toList).kernel) brokenBinding 1 (emptyGadgetWorld, plainGadget) name g') :
    LeavesNothing plainGadget 1 name g' := by
  obtain ⟨a, t₁, e, w', hname, hmade, hcontent⟩ := h
  obtain rfl := Option.some.inj hname
  have haddr : (usbgCreateConfig (configfsMachine "/c".toList).kernel 1 (some "c".toList) none none
      (emptyGadgetWorld, plainGadget)).1 = .ok 1 := by decide +kernel
  have hleft : (importConfigContent (configfsMachine "/c".toList).kernel (functionOps
      (configfsMachine "/c".toList).kernel) brokenBinding 1 (usbgCreateConfig (configfsMachine "/c".toList).kernel 1
        (some "c".toList) none none (emptyGadgetWorld, plainGadget)).2).2.2.functions = [] := by decide +kernel
  rw [hmade] at haddr hleft
  obtain rfl := Outcome.ok.inj haddr
  rw [hcontent] at hleft
  exact ⟨hleft, by decide⟩

/-- The first of them, and the configuration with one binding. -/
theorem importAtomic_brokenFunction :
    ((∀ inst, ImportAtomic (usbgImportFunction (configfsMachine "/c".toList).kernel (functionOps
          (configfsMachine "/c".toList).kernel) (.parsed brokenFunction) inst) (emptyGadgetWorld, plainGadget) ↔
        ∀ root, ConfigFile.parsed brokenFunction = .parsed root → ¬ FunctionRejected (configfsMachine "/c".toList).kernel
          (functionOps (configfsMachine "/c".toList).kernel) root inst (emptyGadgetWorld, plainGadget)) ∧
      ∀ id, ImportAtomic (usbgImportConfig (configfsMachine "/c".toList).kernel (functionOps
          (configfsMachine "/c".toList).kernel) (.parsed brokenFunction) id) (emptyGadgetWorld, plainGadget) ↔
        ∀ root, ConfigFile.parsed brokenFunction = .parsed root → ∀ name g', ConfigRejected
          (configfsMachine "/c".toList).kernel (functionOps (configfsMachine "/c".toList).kernel) root id
            (emptyGadgetWorld, plainGadget) name g' → LeavesNothing plainGadget id name g') ∧
    ImportAtomic (usbgImportConfig (configfsMachine "/c".toList).kernel (functionOps
      (configfsMachine "/c".toList).kernel) (.parsed brokenBinding) 1) (emptyGadgetWorld, plainGadget) := by
  refine ⟨importAtomic_iff (configfsMachine "/c".toList) "/c".toList emptyGadgetWorld plainGadget
    (obliging_configfsMachine "/c".toList) importing_emptyGadget (.parsed brokenFunction), ?_⟩
  refine ((importAtomic_iff (configfsMachine "/c".toList) "/c".toList emptyGadgetWorld plainGadget
    (obliging_configfsMachine "/c".toList) importing_emptyGadget (.parsed brokenBinding)).2 1).mpr ?_
  intro root hroot name g' h
  obtain rfl := ConfigFile.parsed.inj hroot
  exact leavesNothing_brokenBinding h

/-- How many functions the gadget has after an import that failed. -/
def functionsLeft (m : On Fs Gadget Addr) (t : World Fs × Gadget) : Option ℕ :=
  match m t with
  | (.fail _, t') => some t'.2.functions.length
  | _ => none

lemma not_importAtomic {m : On Fs Gadget Addr} {t : World Fs × Gadget} {n : ℕ} (h : functionsLeft m t = some n)
    (hne : n ≠ t.2.functions.length) : ¬ ImportAtomic m t := by
  intro hall
  rw [functionsLeft] at h
  split at h
  · next e t' hrun =>
    obtain rfl := Option.some.inj h
    exact hne (by rw [(hall e t' hrun).functions])
  · cases h

/-- Each of the two imports fails, and leaves a function. -/
theorem importAtomic_fails :
    ¬ ImportAtomic (usbgImportFunction (configfsMachine "/c".toList).kernel (functionOps
        (configfsMachine "/c".toList).kernel) (.parsed brokenFunction) "0".toList) (emptyGadgetWorld, plainGadget) ∧
      ¬ ImportAtomic (usbgImportConfig (configfsMachine "/c".toList).kernel (functionOps
        (configfsMachine "/c".toList).kernel) (.parsed brokenConfig) 1) (emptyGadgetWorld, plainGadget) :=
  ⟨not_importAtomic (n := 1) (by decide +kernel) (by decide), not_importAtomic (n := 1) (by decide +kernel) (by decide)⟩

end Libusbgx
