import Libusbgx.Configfs.Calls
import Libusbgx.Source.Types

/-!
# The shape of a configfs tree

What a call can do to the tree, once and for all; and what configfs lets a tree look like: which
directories can be made below that of a gadget, and where a link may lead.  No call of any program
can break this.
-/

namespace Libusbgx

open Prog

namespace Machine

variable {M : Machine} {c : Syscall} {w : World Fs} {T T' : Tree} {p q : Path}

/-! ## Changes -/

/-- What a call can do to a tree. -/
inductive Change (M : Machine) (T : Tree) : Syscall → Tree → Prop
  | same (c : Syscall) : Change M T c T
  | write (p : Path) (data content : CStr) (hfile : T.get p.resolve = some (.file content)) :
    Change M T (.write p data) (T.replace p.resolve (.file data))
  | mkdir (p : Path) (n : ℕ) (hgranted : M.fault n (.mkdir p) = none) (hfree : T.get p.resolve = none)
      (hparent : T.IsDir p.resolve.dropLast) (hname : ProperName (p.resolve.getLastD [])) :
    Change M T (.mkdir p) (T.addAll (M.newDir p.resolve))
  | symlink (target p : Path) (n : ℕ) (hgranted : M.fault n (.symlink target p) = none)
      (hfree : T.get p.resolve = none) (hparent : T.IsDir p.resolve.dropLast)
      (hname : ProperName (p.resolve.getLastD [])) (htarget : T.IsDir target.resolve) :
    Change M T (.symlink target p) (T.add p.resolve (.link target.render target.resolve))
  | rmdir (c : Syscall) (hc : c.Removes) (hdir : T.get c.path.resolve = some (.dir true))
      (hempty : ¬ T.MadeBelow c.path.resolve) (hfree : ¬ T.Pinned c.path.resolve) :
    Change M T c (T.prune c.path.resolve)
  | unlink (c : Syscall) (hc : c.Removes) (text : CStr) (target : Path)
      (hlink : T.get c.path.resolve = some (.link text target)) :
    Change M T c (T.erase c.path.resolve)

lemma change_rmdir (hc : c.Removes) (h : rmdir T c.path.resolve = .ok T') : Change M T c T' := by
  obtain ⟨hdir, hempty, hfree, rfl⟩ := rmdir_eq_ok.mp h
  exact .rmdir c hc hdir hempty hfree

lemma change_unlink (hc : c.Removes) (h : unlink T c.path.resolve = .ok T') : Change M T c T' := by
  obtain ⟨⟨text, target, hlink⟩, rfl⟩ := unlink_eq_ok.mp h
  exact .unlink c hc text target hlink

/-- A call that succeeds does one of these. -/
lemma change_of_exec {a : c.Ret} {n : ℕ} (hgranted : M.fault n c = none) (h : M.exec c T = .ok (a, T')) :
    Change M T c T' := by
  cases c with
  | opendir | scandir | readlink | read | nftw =>
    obtain ⟨_, -, hT⟩ := map_eq_ok.mp h
    rw [← (Prod.mk.inj hT).2]
    exact .same _
  | write path data =>
    obtain ⟨⟨content, hfile⟩, rfl⟩ := writeFile_eq_ok.mp (exec_write.mp h)
    exact .write path data content hfile
  | mkdir path =>
    obtain ⟨hfree, hparent, hname, rfl⟩ := mkdir_eq_ok.mp (exec_mkdir.mp h)
    exact .mkdir path n hgranted hfree hparent hname
  | rmdir path => exact change_rmdir trivial (exec_rmdir.mp h)
  | unlink path => exact change_unlink trivial (exec_unlink.mp h)
  | symlink target path =>
    obtain ⟨hfree, hparent, hname, htarget, rfl⟩ := symlink_eq_ok.mp (exec_symlink.mp h)
    exact .symlink target path n hgranted hfree hparent hname htarget
  | stat path =>
    rw [exec] at h
    split at h <;> cases h
    exact .same _
  | remove path =>
    obtain ⟨T₁, h, hT⟩ := map_eq_ok.mp h
    rw [← (Prod.mk.inj hT).2]
    rw [remove] at h
    split at h
    · exact change_rmdir (c := .remove path) trivial h
    · exact change_unlink (c := .remove path) trivial h

/-- So does every call. -/
lemma kernel_change (M : Machine) (c : Syscall) (w : World Fs) :
    Change M w.tree c (M.kernel.call c w.sys).2.tree := by
  rw [kernel]
  dsimp only
  cases hf : M.fault w.sys.log.length c with
  | some e => exact .same c
  | none =>
    dsimp only
    cases hexec : M.exec c w.sys.tree with
    | error e => exact .same c
    | ok r => exact change_of_exec hf hexec

namespace Change

/-- Nothing happens elsewhere. -/
lemma outside (h : Change M T c T') (hp : p <+: c.path.resolve) : Outside p T T' := by
  have hne : ∀ {q : Path}, ¬ p <+: q → q ≠ c.path.resolve := fun hq heq => hq (heq ▸ hp)
  have hnp : ∀ {q : Path}, ¬ p <+: q → ¬ c.path.resolve <+: q := fun hq hc => hq (hp.trans hc)
  intro q hq
  cases h with
  | same => rfl
  | write => exact (FileTree.get_replace ..).trans (if_neg (hne hq))
  | mkdir => exact get_newDir_outside (hnp hq)
  | symlink target path =>
    have hpath : path.resolve ≠ q := (hne hq).symm
    rw [FileTree.get_add, if_neg hpath, Option.or_none]
  | rmdir => exact (FileTree.get_prune ..).trans (if_neg (hnp hq))
  | unlink => exact (FileTree.get_erase ..).trans (if_neg (hne hq))

/-- A directory stays as it is, unless it is removed or one that it is in. -/
lemma get_dir {b : Bool} (h : Change M T c T') (hdir : T.get p = some (.dir b))
    (hr : c.Removes → ¬ c.path.resolve <+: p) : T'.get p = some (.dir b) := by
  cases h with
  | same => exact hdir
  | write q data content hfile =>
    rw [FileTree.get_replace, if_neg, hdir]
    rintro rfl
    rw [hdir] at hfile
    cases hfile
  | mkdir => rw [get_newDir, hdir, Option.some_or]
  | symlink => rw [FileTree.get_add, hdir, Option.some_or]
  | rmdir _ hc => rw [FileTree.get_prune, if_neg (hr hc), hdir]
  | unlink _ hc =>
    rw [FileTree.get_erase, if_neg, hdir]
    rintro rfl
    exact hr hc List.prefix_rfl

/-- A directory that is there is not made again. -/
lemma mkdir_of_isDir (h : Change M T (.mkdir p) T') (hp : p = [] ∨ T.IsDir p.resolve) : T' = T := by
  cases h with
  | same => rfl
  | mkdir _ n hgranted hfree hparent =>
    have hdir : T.IsDir p.resolve := by
      rcases hp with rfl | hp
      · exact hparent
      · exact hp
    rw [FileTree.IsDir, hfree] at hdir
    cases hdir
  | rmdir _ hc => exact hc.elim
  | unlink _ hc => exact hc.elim

end Change

lemma stable_of_change {P : Tree → Prop} (h : ∀ c T T', p <+: c.path → Change M T c T' → P T → P T') :
    Stable M.kernel p fun w => P w.tree :=
  .of_calls (fun c w hc => h c _ _ hc (kernel_change M c w)) fun _ h => h

lemma stableUp_of_change {P : Tree → Prop} (h : ∀ c T T', Change M T c T' → P T → P T') :
    StableUp M.kernel p fun w => P w.tree :=
  { stable_of_change fun c T T' _ => h c T T' with
    atMkdir := fun q w _ => h (.mkdir q) _ _ (kernel_change M (.mkdir q) w) }

end Machine

/-- What is under a path is not the path. -/
lemma Under.resolve_not_below {p q : Path} (h : Under p q) (hp : p.Clean) : ¬ q.resolve <+: p := by
  obtain ⟨r, rfl, name, hname, hne⟩ := h
  rw [hp.resolve_append]
  intro hpre
  have hmem : name ∈ r.filter (· ≠ []) := List.mem_filter.mpr ⟨hname, by simpa using hne⟩
  have hlen := hpre.length_le
  rw [List.length_append] at hlen
  have := List.length_pos_of_mem hmem
  omega

/-! ## Shapes -/

/-- Where, below a gadget, the user makes directories; nothing else can be there. -/
def UserPlace : Path → Prop
  | [] => True
  | [x, _] => x = stringsDir ∨ x = configsDir ∨ x = functionsDir
  | [x, _, y, _] => x = configsDir ∧ y = stringsDir
  | _ => False

instance : DecidablePred UserPlace := fun r =>
  match r with
  | [] => isTrue trivial
  | [x, _] => inferInstanceAs (Decidable (x = stringsDir ∨ x = configsDir ∨ x = functionsDir))
  | [x, _, y, _] => inferInstanceAs (Decidable (x = configsDir ∧ y = stringsDir))
  | [_] | [_, _, _] | _ :: _ :: _ :: _ :: _ :: _ => isFalse id

/-- A function with this name is composed of things that the user makes in its directory. -/
def Composed (name : CStr) : Prop :=
  (cutFirst '.' name).any (fun p => p.1 = FunctionType.massStorage.name ∨ p.1 = FunctionType.uvc.name) = true

instance (name : CStr) : Decidable (Composed name) := inferInstanceAs (Decidable (_ = true))

/-- The path is below a function that is composed of such things. -/
def InFunction : Path → Prop
  | x :: f :: _ :: _ => x = functionsDir ∧ Composed f
  | _ => False

instance : DecidablePred InFunction := fun r =>
  match r with
  | x :: f :: _ :: _ => inferInstanceAs (Decidable (x = functionsDir ∧ Composed f))
  | [] | [_] | [_, _] => isFalse id

/-- A link from one place in a function to another. -/
def LinkInFunction (d : Path) (r t : Path) : Prop :=
  InFunction r ∧ d ++ r.take 2 <+: t ∧ t ≠ d ++ r.take 2

instance (d r t : Path) : Decidable (LinkInFunction d r t) := inferInstanceAs (Decidable (_ ∧ _))

/-- Where a link below the gadget with the directory `d` may lead: from a configuration to a function, from
the OS descriptors to a configuration, and from one place in a function to another. -/
def LinkPlace (d : Path) (r t : Path) : Prop :=
  match r with
  | [x, _] => x = osDescDir ∧ t.dropLast = d ++ [configsDir]
  | [x, f, y] => x = configsDir ∧ y ≠ stringsDir ∧ t.dropLast = d ++ [functionsDir] ∨ LinkInFunction d [x, f, y] t
  | r => LinkInFunction d r t

instance (d r t : Path) : Decidable (LinkPlace d r t) :=
  match r with
  | [x, _] => inferInstanceAs (Decidable (x = osDescDir ∧ t.dropLast = d ++ [configsDir]))
  | [x, f, y] => inferInstanceAs (Decidable
      (x = configsDir ∧ y ≠ stringsDir ∧ t.dropLast = d ++ [functionsDir] ∨ LinkInFunction d [x, f, y] t))
  | x :: f :: y :: z :: r => inferInstanceAs (Decidable (LinkInFunction d (x :: f :: y :: z :: r) t))
  | [x] => inferInstanceAs (Decidable (LinkInFunction d [x] t))
  | [] => inferInstanceAs (Decidable (LinkInFunction d [] t))

/-- What may be at a path below the gadget with the directory `d`. -/
def GadgetNode (d r : Path) : Node CStr CStr → Prop
  | .dir true => UserPlace r ∨ InFunction r
  | .dir false | .file _ => ¬ UserPlace r
  | .link _ t => LinkPlace d r t ∧ ¬ UserPlace r

instance (d r : Path) (n : Node CStr CStr) : Decidable (GadgetNode d r n) :=
  match n with
  | .dir true => inferInstanceAs (Decidable (UserPlace r ∨ InFunction r))
  | .dir false | .file _ => inferInstanceAs (Decidable (¬ UserPlace r))
  | .link _ t => inferInstanceAs (Decidable (LinkPlace d r t ∧ ¬ UserPlace r))

/-- What may be at a path: links from elsewhere do not lead to the gadgets. -/
def NodeOk (cfg : CStr) (q : Path) (n : Node CStr CStr) : Prop :=
  match q with
  | a :: b :: g :: r =>
    if a = cfg ∧ b = gadgetsDir then GadgetNode [a, b, g] r n else ∀ t ∈ n.target?, ¬ [cfg, gadgetsDir] <+: t
  | _ => ∀ t ∈ n.target?, ¬ [cfg, gadgetsDir] <+: t

instance (cfg : CStr) (q : Path) (n : Node CStr CStr) : Decidable (NodeOk cfg q n) :=
  match q with
  | a :: b :: g :: r => inferInstanceAs (Decidable (if a = cfg ∧ b = gadgetsDir then GadgetNode [a, b, g] r n
      else ∀ t ∈ n.target?, ¬ [cfg, gadgetsDir] <+: t))
  | [] | [_] | [_, _] => inferInstanceAs (Decidable (∀ t ∈ n.target?, ¬ [cfg, gadgetsDir] <+: t))

/-- Every node is in a directory. -/
def Rooted (T : Tree) : Prop := ∀ q x n, q ≠ [] → T.get (q ++ [x]) = some n → T.IsDir q

/-- Every link leads to a directory. -/
def LinksAlive (T : Tree) : Prop := ∀ q text t, T.get q = some (.link text t) → T.IsDir t

lemma rooted_of_entries {T : Tree} (h : ∀ e ∈ T.entries, e.1.dropLast = [] ∨ T.IsDir e.1.dropLast) : Rooted T := by
  intro q x n hq hn
  have hmem := h _ (FileTree.get_eq_some.mp hn)
  rw [List.dropLast_concat] at hmem
  exact hmem.resolve_left hq

lemma linksAlive_of_entries {T : Tree} (h : ∀ e ∈ T.entries, ∀ t ∈ e.2.target?, T.IsDir t) : LinksAlive T :=
  fun _ _ t hn => h _ (FileTree.get_eq_some.mp hn) t rfl

namespace Rooted

variable {T : Tree} {p q : Path}

/-- Everything on the way to a node is a directory. -/
lemma isDir_of_prefix (h : Rooted T) {n : Node CStr CStr} (hn : T.get q = some n) (hp : p <+: q)
    (hne : p ≠ q) (hp0 : p ≠ []) : T.IsDir p := by
  obtain ⟨r, rfl⟩ := hp
  induction r using List.reverseRecOn generalizing n with
  | nil => exact absurd (List.append_nil p).symm hne
  | append_singleton r x ih =>
    rw [← List.append_assoc] at hn
    have hdir := h _ _ _ (by simp [hp0]) hn
    by_cases hr : r = []
    · rwa [hr, List.append_nil] at hdir
    · obtain ⟨b, hb⟩ := FileTree.isDir_iff.mp hdir
      exact ih hb (by simpa using hr)

/-- Everything on the way to a place in a directory is a directory. -/
lemma isDir_of_parent (h : Rooted T) (hparent : T.IsDir q.dropLast) (hp : p <+: q) (hne : p ≠ q)
    (hp0 : p ≠ []) : T.IsDir p := by
  obtain ⟨b, hb⟩ := FileTree.isDir_iff.mp hparent
  have hpre : p <+: q.dropLast := by
    obtain ⟨r, rfl⟩ := hp
    rcases List.eq_nil_or_concat r with rfl | ⟨r, x, rfl⟩
    · exact absurd (List.append_nil p).symm hne
    · rw [List.concat_eq_append, ← List.append_assoc, List.dropLast_concat]
      exact List.prefix_append ..
  by_cases hpq : p = q.dropLast
  · rwa [hpq]
  · exact h.isDir_of_prefix hb hpre hpq hp0

/-- Nothing is below something that is no directory. -/
lemma get_of_not_isDir (h : Rooted T) (hp : ¬ T.IsDir p) (hp0 : p ≠ []) (hq : p <+: q) (hne : p ≠ q) :
    T.get q = none := by
  cases hn : T.get q with
  | none => rfl
  | some n => exact absurd (h.isDir_of_prefix hn hq hne hp0) hp

end Rooted

/-- A tree as configfs has it: every node is in a directory and has a proper name, and everything is where
it may be. -/
structure Shaped (cfg : CStr) (T : Tree) : Prop where
  parents : Rooted T
  names : ∀ q n, T.get q = some n → ∀ x ∈ q.tail, ProperName x
  nodes : ∀ q n, T.get q = some n → NodeOk cfg q n

/-- The kernel allows what configfs allows, and puts its groups into new directories. -/
structure Configfs (M : Machine) (cfg : CStr) : Prop where
  mkdirs : ∀ n p, M.fault n (.mkdir p) = none → ∀ e ∈ M.newDir p.resolve, NodeOk cfg e.1 e.2
  links : ∀ n t p, M.fault n (.symlink t p) = none → NodeOk cfg p.resolve (.link t.render t.resolve)
  nodup : ∀ p, KeysNodup Prod.fst (M.newDir p)
  parents : ∀ p r x c, (r ++ [x], c) ∈ M.groups p → r = [] ∨ (r, none) ∈ M.groups p
  names : ∀ p e, e ∈ M.groups p → ∀ x ∈ e.1, ProperName x

namespace Shaped

variable {M : Machine} {cfg : CStr} {T T' : Tree} {p q : Path}

/-- A path to a node has no empty names but the first. -/
lemma clean (h : Shaped cfg T) {n : Node CStr CStr} (hn : T.get q = some n) (hq : q ≠ []) : q.Clean := by
  refine ⟨hq, ?_⟩
  cases q with
  | nil => exact absurd rfl hq
  | cons a q =>
    rw [Path.resolve, List.filter_eq_self.mpr]
    intro x hx
    simpa using (h.names _ _ hn x hx).1

end Shaped

/-! ### No call breaks the shape -/

section Changes

variable {M : Machine} {cfg : CStr} {T T' : Tree} {p q : Path} {n : Node CStr CStr}

/-- What is at a path after a directory has been made was there, or is new and below the directory. -/
lemma get_newDir_cases (h : (T.addAll (M.newDir p)).get q = some n) :
    T.get q = some n ∨ T.get q = none ∧ (q, n) ∈ M.newDir p := by
  rw [Machine.get_newDir] at h
  cases hT : T.get q with
  | some n' =>
    rw [hT] at h
    exact .inl h
  | none =>
    rw [hT, Option.none_or] at h
    obtain ⟨e, he, rfl⟩ := Option.map_eq_some_iff.mp h
    obtain ⟨hmem, rfl⟩ : e ∈ M.newDir p ∧ e.1 = q :=
      ⟨List.mem_of_find?_eq_some he, by simpa using List.find?_some he⟩
    exact .inr ⟨rfl, hmem⟩

lemma get_newDir_of_get (h : T.get q = some n) : (T.addAll (M.newDir p)).get q = some n := by
  rw [Machine.get_newDir, h, Option.some_or]

lemma get_newDir_of_mem (hnodup : KeysNodup Prod.fst (M.newDir p)) (hT : T.get q = none)
    (h : (q, n) ∈ M.newDir p) : (T.addAll (M.newDir p)).get q = some n := by
  rw [Machine.get_newDir, hT, Option.none_or, (find?_key_eq_some hnodup).mpr ⟨h, rfl⟩]
  rfl

/-- The groups of a new directory are there. -/
lemma get_newDir_group (hM : Configfs M cfg) (h : Rooted T) (hp : T.get p = none) (hp0 : p ≠ []) {r : Path}
    {c : Option CStr} (hr : (r, c) ∈ M.groups p) :
    (T.addAll (M.newDir p)).get (p ++ r) = some (groupNode c) := by
  refine get_newDir_of_mem (hM.nodup p) ?_ (List.mem_cons_of_mem _ (List.mem_map_of_mem hr))
  by_cases hr0 : p = p ++ r
  · rw [← hr0, hp]
  · refine h.get_of_not_isDir (fun hdir => ?_) hp0 (List.prefix_append ..) hr0
    obtain ⟨b, hb⟩ := FileTree.isDir_iff.mp hdir
    rw [hp] at hb
    cases hb

lemma isDir_newDir (h : T.IsDir q) : (T.addAll (M.newDir p)).IsDir q := by
  obtain ⟨b, hb⟩ := FileTree.isDir_iff.mp h
  exact FileTree.isDir_iff.mpr ⟨b, get_newDir_of_get hb⟩

/-- What a file holds does not matter. -/
lemma nodeOk_file {content data : CStr} : NodeOk cfg q (.file content) ↔ NodeOk cfg q (.file data) := by
  rcases q with - | ⟨a, - | ⟨b, - | ⟨g, r⟩⟩⟩ <;> exact Iff.rfl

namespace Shaped

/-- A new name in a directory. -/
lemma names_of_parent (h : Shaped cfg T) (hparent : T.IsDir p.dropLast) (hname : ProperName (p.getLastD [])) :
    ∀ x ∈ p.tail, ProperName x := by
  obtain ⟨b, hb⟩ := FileTree.isDir_iff.mp hparent
  rcases List.eq_nil_or_concat p with rfl | ⟨q, y, rfl⟩
  · simp
  · rw [List.concat_eq_append] at hb hname ⊢
    rw [List.dropLast_concat] at hb
    rw [List.getLastD_concat] at hname
    intro x hx
    rcases q with - | ⟨a, q⟩
    · cases hx
    · rcases List.mem_append.mp (show x ∈ q ++ [y] from hx) with hx | hx
      · exact h.names _ _ hb x hx
      · rw [List.mem_singleton.mp hx]
        exact hname

lemma mkdir (hM : Configfs M cfg) (h : Shaped cfg T) (hfree : T.get p = none)
    (hparent : T.IsDir p.dropLast) (hname : ProperName (p.getLastD []))
    (hnodes : ∀ e ∈ M.newDir p, NodeOk cfg e.1 e.2) : Shaped cfg (T.addAll (M.newDir p)) := by
  have hp0 : p ≠ [] := by
    rintro rfl
    obtain ⟨b, hb⟩ := FileTree.isDir_iff.mp hparent
    rw [show ([] : Path).dropLast = [] from rfl, hfree] at hb
    cases hb
  have hpnames := h.names_of_parent hparent hname
  refine ⟨fun q x n hq hn => ?_, fun q n hn => ?_, fun q n hn => ?_⟩
  · rcases get_newDir_cases hn with hn | ⟨-, hmem⟩
    · exact isDir_newDir (h.parents q x n hq hn)
    · rcases List.mem_cons.mp hmem with heq | hmem
      · obtain ⟨rfl, -⟩ := Prod.mk.inj heq
        rw [List.dropLast_concat] at hparent
        exact isDir_newDir hparent
      · obtain ⟨⟨r, c⟩, hr, heq⟩ := List.mem_map.mp hmem
        obtain ⟨hpath, -⟩ := Prod.mk.inj heq
        dsimp only at hpath
        have hself : (T.addAll (M.newDir p)).IsDir p :=
          FileTree.isDir_iff.mpr ⟨true, Machine.get_newDir_self hfree⟩
        -- the last name of the path is that of the group, unless this is the directory itself
        rcases List.eq_nil_or_concat r with rfl | ⟨r, y, rfl⟩
        · rw [List.append_nil] at hpath
          rw [hpath, List.dropLast_concat] at hparent
          exact isDir_newDir hparent
        · rw [List.concat_eq_append, ← List.append_assoc] at hpath
          obtain ⟨rfl, -⟩ := List.append_inj' hpath rfl
          rcases hM.parents p r y c (by rwa [List.concat_eq_append] at hr) with rfl | hgroup
          · rwa [List.append_nil]
          · exact FileTree.isDir_iff.mpr ⟨false, get_newDir_group hM h.parents hfree hp0 hgroup⟩
  · rcases get_newDir_cases hn with hn | ⟨-, hmem⟩
    · exact h.names q n hn
    · rcases List.mem_cons.mp hmem with heq | hmem
      · obtain ⟨rfl, -⟩ := Prod.mk.inj heq
        exact hpnames
      · obtain ⟨⟨r, c⟩, hr, heq⟩ := List.mem_map.mp hmem
        obtain ⟨rfl, -⟩ := Prod.mk.inj heq
        intro x hx
        rw [List.tail_append_of_ne_nil hp0] at hx
        exact (List.mem_append.mp hx).elim (hpnames x) (hM.names p _ hr x)
  · rcases get_newDir_cases hn with hn | ⟨-, hmem⟩
    · exact h.nodes q n hn
    · exact hnodes _ hmem

/-- Taking away a directory and what is below it. -/
lemma prune (h : Shaped cfg T) (p : Path) : Shaped cfg (T.prune p) := by
  have hget : ∀ q n, (T.prune p).get q = some n → ¬ p <+: q ∧ T.get q = some n := by
    intro q n hn
    rw [FileTree.get_prune] at hn
    split at hn
    · cases hn
    · next hpre => exact ⟨hpre, hn⟩
  refine ⟨fun q x n hq hn => ?_, fun q n hn => ?_, fun q n hn => ?_⟩
  · obtain ⟨hpre, hn⟩ := hget _ _ hn
    rw [FileTree.IsDir, FileTree.get_prune, if_neg fun hc => hpre (hc.trans (List.prefix_append ..))]
    exact h.parents q x n hq hn
  · exact h.names q n (hget _ _ hn).2
  · exact h.nodes q n (hget _ _ hn).2

lemma erase (h : Shaped cfg T) {text : CStr} {t : Path} (hlink : T.get p = some (.link text t)) :
    Shaped cfg (T.erase p) := by
  have hget : ∀ q n, (T.erase p).get q = some n → T.get q = some n := by
    intro q n hn
    rw [FileTree.get_erase] at hn
    split at hn
    · cases hn
    · exact hn
  refine ⟨fun q x n hq hn => ?_, fun q n hn => h.names q n (hget _ _ hn), fun q n hn => h.nodes q n (hget _ _ hn)⟩
  obtain ⟨b, hb⟩ := FileTree.isDir_iff.mp (h.parents q x n hq (hget _ _ hn))
  refine FileTree.isDir_iff.mpr ⟨b, ?_⟩
  rw [FileTree.get_erase, if_neg, hb]
  rintro rfl
  rw [hlink] at hb
  cases hb

lemma symlink (h : Shaped cfg T) (hfree : T.get p = none) (hparent : T.IsDir p.dropLast)
    (hname : ProperName (p.getLastD [])) {text : CStr} {t : Path} (hnode : NodeOk cfg p (.link text t)) :
    Shaped cfg (T.add p (.link text t)) := by
  have hget : ∀ q n, (T.add p (.link text t)).get q = some n → T.get q = some n ∨ q = p ∧ n = .link text t := by
    intro q n hn
    rw [FileTree.get_add] at hn
    cases hT : T.get q with
    | some n' =>
      rw [hT] at hn
      exact .inl hn
    | none =>
      rw [hT, Option.none_or] at hn
      split at hn
      · next heq => exact .inr ⟨heq.symm, (Option.some.inj hn).symm⟩
      · cases hn
  have hdir : ∀ q, T.IsDir q → (T.add p (.link text t)).IsDir q := by
    intro q hq
    obtain ⟨b, hb⟩ := FileTree.isDir_iff.mp hq
    refine FileTree.isDir_iff.mpr ⟨b, ?_⟩
    rw [FileTree.get_add, hb, Option.some_or]
  refine ⟨fun q x n hq hn => ?_, fun q n hn => ?_, fun q n hn => ?_⟩
  · rcases hget _ _ hn with hn | ⟨rfl, -⟩
    · exact hdir q (h.parents q x n hq hn)
    · rw [List.dropLast_concat] at hparent
      exact hdir q hparent
  · rcases hget _ _ hn with hn | ⟨rfl, -⟩
    · exact h.names q n hn
    · exact h.names_of_parent hparent hname
  · rcases hget _ _ hn with hn | ⟨rfl, rfl⟩
    · exact h.nodes q n hn
    · exact hnode

lemma replace (h : Shaped cfg T) {content data : CStr} (hfile : T.get p = some (.file content)) :
    Shaped cfg (T.replace p (.file data)) := by
  have hget : ∀ q n, (T.replace p (.file data)).get q = some n → T.get q = some n ∨ q = p ∧ n = .file data := by
    intro q n hn
    rw [FileTree.get_replace] at hn
    split at hn
    · next heq =>
      rw [heq, hfile] at hn
      exact .inr ⟨heq, (Option.some.inj hn).symm⟩
    · exact .inl hn
  have hold : ∀ q n, (T.replace p (.file data)).get q = some n → ∃ n', T.get q = some n' := by
    intro q n hn
    rcases hget q n hn with hn | ⟨rfl, -⟩
    · exact ⟨n, hn⟩
    · exact ⟨_, hfile⟩
  refine ⟨fun q x n hq hn => ?_, fun q n hn => ?_, fun q n hn => ?_⟩
  · obtain ⟨n', hn'⟩ := hold _ _ hn
    obtain ⟨b, hb⟩ := FileTree.isDir_iff.mp (h.parents q x n' hq hn')
    refine FileTree.isDir_iff.mpr ⟨b, ?_⟩
    rw [FileTree.get_replace, if_neg, hb]
    rintro rfl
    rw [hfile] at hb
    cases hb
  · obtain ⟨n', hn'⟩ := hold _ _ hn
    exact h.names q n' hn'
  · rcases hget q n hn with hn | ⟨rfl, rfl⟩
    · exact h.nodes q n hn
    · exact nodeOk_file.mp (h.nodes q _ hfile)

lemma change (hM : Configfs M cfg) {c : Syscall} (hc : Machine.Change M T c T') (h : Shaped cfg T) :
    Shaped cfg T' := by
  cases hc with
  | same => exact h
  | write p data content hfile => exact h.replace hfile
  | mkdir p n hgranted hfree hparent hname => exact h.mkdir hM hfree hparent hname (hM.mkdirs n p hgranted)
  | symlink target p n hgranted hfree hparent hname htarget =>
    exact h.symlink hfree hparent hname (hM.links n target p hgranted)
  | rmdir => exact h.prune _
  | unlink _ _ _ _ hlink => exact h.erase hlink

end Shaped

/-- No program breaks the shape of the tree. -/
lemma stable_shaped (hM : Configfs M cfg) (p : Path) : StableUp M.kernel p fun w => Shaped cfg w.tree :=
  Machine.stableUp_of_change fun _ _ _ hc h => h.change hM hc

end Changes

end Libusbgx
