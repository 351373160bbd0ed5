import Libusbgx.Configfs.Inside
import Libusbgx.Configfs.WellFormed

/-!
# A gadget and its directory

The lists of a gadget mirror what the user has made in its directory.  Whatever is in the lists is in the
tree; the converse fails where a constructor has failed and left its directory behind (`Tidy`), and the
configuration with the OS descriptors may have lost its link (`Live`).
-/

namespace Libusbgx

open Prog Machine

variable {M : Machine} {cfg : CStr} {T T' : Tree} {w w' : World Fs} {g g' : Gadget} {d : Path}

/-! ## Mirrors -/

/-- What is known of the labels that the callers choose, and of the texts of links. -/
structure Naming where
  label : CStr → Prop
  link : CStr → Path → Prop

/-- Nothing is known. -/
def Naming.any : Naming := ⟨fun _ => True, fun _ _ => True⟩

/-- What is known of links holds of those that the library makes in the file system at `cfg`. -/
def Naming.Renders (N : Naming) (cfg : CStr) : Prop :=
  ∀ p : Path, p ≠ [] → (∀ x ∈ p, ProperName x) → Path.Fits (cfg :: p) → N.link (Path.render (cfg :: p)) (cfg :: p)

lemma Naming.any_renders : Naming.any.Renders cfg := fun _ _ _ _ => trivial

variable {N : Naming}

/-- A function and its directory, below the directory `d` of the gadget. -/
structure FuncMirrored (T : Tree) (d : Path) (f : Func) : Prop where
  path : f.path = d ++ [functionsDir]
  made : T.made (d ++ [functionsDir, f.name]) = some (.dir true)
  named : f.Named

/-- A binding of the configuration with the name `c` and its link, which can be read. -/
structure BindingMirrored (N : Naming) (T : Tree) (d : Path) (fs : List Func) (c : CStr) (b : Binding) : Prop where
  path : b.path = d ++ [configsDir, c]
  fits : (d ++ [configsDir, c, b.name]).Fits
  target : ∃ f ∈ fs, f.addr = b.target ∧ ∃ text, N.link text (d ++ [functionsDir, f.name]) ∧
    T.made (d ++ [configsDir, c, b.name]) = some (.link text (d ++ [functionsDir, f.name]))

/-- A configuration and its directory: each of the links in it has a binding. -/
structure ConfigMirrored (N : Naming) (T : Tree) (d : Path) (fs : List Func) (c : Config) : Prop where
  path : c.path = d ++ [configsDir]
  fits : (d ++ [configsDir, c.name]).Fits
  made : T.made (d ++ [configsDir, c.name]) = some (.dir true)
  named : c.name = configName c.label c.id
  id : 0 < c.id ∧ c.id ≤ 255
  label : N.label c.label
  names : Increasing (c.bindings.map Binding.name)
  bindings : ∀ b ∈ c.bindings, BindingMirrored N T d fs c.name b
  complete : ∀ x, T.made (d ++ [configsDir, c.name, x]) ≠ none → ∃ b ∈ c.bindings, b.name = x

/-- There is one OS descriptor link at most, and the gadget remembers the configuration it leads to. -/
structure OsMirrored (N : Naming) (T : Tree) (g : Gadget) : Prop where
  target : ∀ x text t, T.made (g.dir ++ [osDescDir, x]) = some (.link text t) →
    ∃ c ∈ g.configs, g.osDescBinding = some c.addr ∧ t = g.dir ++ [configsDir, c.name]
  link : ∀ x text t, T.made (g.dir ++ [osDescDir, x]) = some (.link text t) → N.link text t
  one : ∀ x y, T.made (g.dir ++ [osDescDir, x]) ≠ none → T.made (g.dir ++ [osDescDir, y]) ≠ none → x = y
  fits : ∀ x, T.made (g.dir ++ [osDescDir, x]) ≠ none → (g.dir ++ [osDescDir, x]).Fits

/-- The lists of a gadget mirror its directory. -/
structure GadgetMirrored (cfg : CStr) (N : Naming) (w : World Fs) (g : Gadget) : Prop where
  shaped : Shaped cfg w.tree
  path : g.path = [cfg, gadgetsDir]
  made : w.tree.made g.dir = some (.dir true)
  functions : ∀ f ∈ g.functions, FuncMirrored w.tree g.dir f
  configs : ∀ c ∈ g.configs, ConfigMirrored N w.tree g.dir g.functions c
  functionNames : Increasing (g.functions.map Func.name)
  configNames : Increasing (g.configs.map Config.name)
  functionAddrs : KeysNodup Func.addr g.functions
  configAddrs : KeysNodup Config.addr g.configs
  os : OsMirrored N w.tree g
  freshFunctions : ∀ f ∈ g.functions, f.addr < w.next
  freshConfigs : ∀ c ∈ g.configs, c.addr < w.next
  freshOs : ∀ a ∈ g.osDescBinding, a < w.next

/-- Every directory of a function or a configuration is in the lists. -/
structure Tidy (T : Tree) (g : Gadget) : Prop where
  functions : ∀ x, T.made (g.dir ++ [functionsDir, x]) ≠ none → ∃ f ∈ g.functions, f.name = x
  configs : ∀ x, T.made (g.dir ++ [configsDir, x]) ≠ none → ∃ c ∈ g.configs, c.name = x

/-- If the configuration that the gadget remembers is there, then so is its link. -/
def Live (T : Tree) (g : Gadget) : Prop :=
  ∀ c ∈ g.configs, g.osDescBinding = some c.addr → ∃ x, T.made (g.dir ++ [osDescDir, x]) ≠ none

/-! ## Paths -/

lemma place_append (hd : d.length = 3) (r : Path) : Place ((d ++ r).drop 3) ↔ Place r := by
  rw [← hd, List.drop_left]

@[simp] lemma configsDir_ne_functionsDir : configsDir ≠ functionsDir := by decide

@[simp] lemma osDescDir_ne_functionsDir : osDescDir ≠ functionsDir := by decide

@[simp] lemma osDescDir_ne_configsDir : osDescDir ≠ configsDir := by decide

/-- Below the directory `d` of a gadget nothing has changed at the places but at `r`. -/
structure Untouched (d r : Path) (T T' : Tree) : Prop where
  dir : T'.made d = T.made d
  functions : ∀ x, [functionsDir, x] ≠ r → T'.made (d ++ [functionsDir, x]) = T.made (d ++ [functionsDir, x])
  configs : ∀ x, [configsDir, x] ≠ r → T'.made (d ++ [configsDir, x]) = T.made (d ++ [configsDir, x])
  links : ∀ x y, [configsDir, x, y] ≠ r → T'.made (d ++ [configsDir, x, y]) = T.made (d ++ [configsDir, x, y])
  os : ∀ x, [osDescDir, x] ≠ r → T'.made (d ++ [osDescDir, x]) = T.made (d ++ [osDescDir, x])

lemma untouched_of_places {r : Path} (hr : r ≠ [])
    (h : ∀ r', r' ≠ r → Place r' → T'.made (d ++ r') = T.made (d ++ r')) : Untouched d r T T' where
  dir := by
    have := h [] hr.symm trivial
    rwa [List.append_nil] at this
  functions x hx := h _ hx (.inr (.inl rfl))
  configs x hx := h _ hx (.inl rfl)
  links x y hx := h [configsDir, x, y] hx rfl
  os x hx := h _ hx (.inr (.inr rfl))

lemma PlaceSet.untouched {r : Path} {o : Option (Node CStr CStr)} (h : PlaceSet (d ++ r) o T T') (hd : d.length = 3)
    (hr : r ≠ []) : Untouched d r T T' :=
  untouched_of_places hr fun r' hne hplace =>
    h.of_ne ((place_append hd r').mpr hplace) fun heq => hne (List.append_cancel_left heq)

/-- No place is called like this. -/
lemma SamePlaces.untouched (h : SamePlaces T T') (hd : d.length = 3) : Untouched d [[]] T T' :=
  untouched_of_places (List.cons_ne_nil _ _) fun r' _ hplace => h _ ((place_append hd r').mpr hplace)

lemma Increasing.keysNodup {α : Type} {key : α → CStr} {l : List α} (h : Increasing (l.map key)) : KeysNodup key l :=
  List.Pairwise.imp (fun hlt => ne_of_lt hlt) h

/-- A new name keeps the names in order. -/
lemma Increasing.insertSorted {α : Type} {key : α → CStr} {x : α} {l : List α} (h : Increasing (l.map key))
    (hx : ∀ y ∈ l, key y ≠ key x) : Increasing ((insertSorted key x l).map key) := by
  have hle : (Libusbgx.insertSorted key x l).Pairwise (key · ≤ key ·) :=
    insertSorted_pairwise ((List.pairwise_map.mp h).imp fun hlt => le_of_lt hlt)
  have hnodup : KeysNodup key (Libusbgx.insertSorted key x l) := (h.keysNodup.cons hx).perm insertSorted_perm
  refine List.pairwise_map.mpr ((hle.and (List.pairwise_map.mp hnodup)).imp ?_)
  exact fun hab => lt_of_le_of_ne hab.1 hab.2

lemma Increasing.sublist {α : Type} {key : α → CStr} {l l' : List α} (h : Increasing (l.map key))
    (hsub : l'.Sublist l) :
    Increasing (l'.map key) := List.Pairwise.sublist (hsub.map key) h

/-- What is made in the directory for the OS descriptors is a link. -/
lemma Shaped.os_link (h : Shaped cfg T) {x y : CStr} {n : Node CStr CStr}
    (hn : T.made ([cfg, gadgetsDir, x] ++ [osDescDir, y]) = some n) : ∃ text t, n = .link text t := by
  obtain ⟨hn, hmade⟩ := FileTree.made_eq_some.mp hn
  have hok := h.gadgetNode hn
  rcases n with made | content | ⟨text, t⟩
  · rw [Node.made_dir] at hmade
    rw [hmade] at hok
    rcases hok with hplace | hin
    · exact absurd hplace (by simp [UserPlace, stringsDir_ne_osDescDir.symm])
    · exact hin.elim
  · cases hmade
  · exact ⟨text, t, rfl⟩

namespace GadgetMirrored

lemma dir_eq (h : GadgetMirrored cfg N w g) : g.dir = [cfg, gadgetsDir, g.name] := by
  rw [Gadget.dir, h.path]
  rfl

lemma length_dir (h : GadgetMirrored cfg N w g) : g.dir.length = 3 := by
  rw [h.dir_eq]
  rfl

/-- A path to something that is there. -/
lemma clean_of_made (h : GadgetMirrored cfg N w g) {r : Path} {n : Node CStr CStr}
    (hn : w.tree.made (g.dir ++ r) = some n) :
    (g.dir ++ r).Clean :=
  h.shaped.clean (FileTree.made_eq_some.mp hn).1 (by rw [h.dir_eq]; simp)

lemma clean (h : GadgetMirrored cfg N w g) : g.dir.Clean := by
  have hn := h.made
  rw [← List.append_nil g.dir] at hn ⊢
  exact h.clean_of_made hn

/-- The text of a link that the library makes to something in the directory. -/
lemma renders (h : GadgetMirrored cfg N w g) (hN : N.Renders cfg) {r : Path} {n : Node CStr CStr}
    (hn : w.tree.made (g.dir ++ r) = some n) (hfits : (g.dir ++ r).Fits) :
    N.link (g.dir ++ r).render (g.dir ++ r) := by
  have hnames := h.shaped.names _ _ (FileTree.made_eq_some.mp hn).1
  rw [h.dir_eq] at hnames hfits ⊢
  exact hN _ (List.cons_ne_nil _ _) hnames hfits

lemma os_link (h : GadgetMirrored cfg N w g) {x : CStr} {n : Node CStr CStr}
    (hn : w.tree.made (g.dir ++ [osDescDir, x]) = some n) : ∃ text t, n = .link text t :=
  h.shaped.os_link (h.dir_eq ▸ hn)

end GadgetMirrored

end Libusbgx
