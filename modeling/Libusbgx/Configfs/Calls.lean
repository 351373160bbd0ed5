import Libusbgx.Configfs.Kernel

/-!
# What the calls do to the tree

A call that the kernel answers with an error changes nothing; any other call changes the tree
only at the path it is about and below.
-/

namespace Libusbgx

open Prog

/-- The tree of a world. -/
def World.tree (w : World Fs) : Tree := w.sys.tree

/-- The world with a tree. -/
def worldOf (T : Tree) : World Fs := { sys := { tree := T, log := [] }, next := 0 }

lemma tree_worldOf (T : Tree) : (worldOf T).tree = T := rfl

/-! ## Paths -/

namespace Path

variable {p q : Path}

/-- No name but the first is empty. -/
def Clean (p : Path) : Prop := p ≠ [] ∧ p.resolve = p

instance (p : Path) : Decidable p.Clean := inferInstanceAs (Decidable (_ ∧ _))

lemma resolve_append (hp : p ≠ []) (q : Path) : (p ++ q).resolve = p.resolve ++ q.filter (· ≠ []) := by
  cases p with
  | nil => exact absurd rfl hp
  | cons a p => simp [resolve]

lemma Clean.resolve_append (hp : p.Clean) (q : Path) : (p ++ q).resolve = p ++ q.filter (· ≠ []) := by
  rw [Path.resolve_append hp.1, hp.2]

lemma Clean.append (hp : p.Clean) (hq : ∀ name ∈ q, name ≠ []) : (p ++ q).Clean := by
  refine ⟨fun h => hp.1 (List.append_eq_nil_iff.mp h).1, ?_⟩
  rw [hp.resolve_append, List.filter_eq_self.mpr (by simpa using hq)]

lemma Clean.of_prefix (hp : p.Clean) (hq : q <+: p) (hq0 : q ≠ []) : q.Clean := by
  refine ⟨hq0, ?_⟩
  obtain ⟨r, rfl⟩ := hq
  rcases q with - | ⟨a, q⟩
  · exact absurd rfl hq0
  · have hall := hp.2
    rw [List.cons_append, resolve, List.cons.injEq, List.filter_append] at hall
    have hfilter : ∀ x ∈ q ++ r, x ≠ [] := by
      intro x hx
      rw [← hall.2, ← List.filter_append] at hx
      simpa using (List.mem_filter.mp hx).2
    rw [resolve, List.filter_eq_self.mpr]
    exact fun x hx => by simpa using hfilter x (List.mem_append_left _ hx)

/-- What is below a clean path stays below it. -/
lemma Clean.prefix_resolve (hp : p.Clean) (h : p <+: q) : p <+: q.resolve := by
  obtain ⟨r, rfl⟩ := h
  rw [hp.resolve_append]
  exact List.prefix_append ..

end Path

lemma prefix_fits {p q : Path} (hpq : p <+: q) (hq : q.Fits) : p.Fits := by
  obtain ⟨r, rfl⟩ := hpq
  refine lt_of_le_of_lt ?_ hq
  simp only [Path.len, List.map_append, List.sum_append, List.length_append]
  omega

/-- A shorter name fits where a longer one does. -/
lemma Path.Fits.of_length_le {p : Path} {x y : CStr} (h : (p ++ [y]).Fits) (hle : x.length ≤ y.length) :
    (p ++ [x]).Fits := by
  refine lt_of_le_of_lt ?_ h
  simp only [Path.len, List.map_append, List.sum_append, List.length_append, List.map_cons, List.sum_cons,
    List.map_nil, List.sum_nil, List.length_cons, List.length_nil]
  omega

/-! ## Calls -/

namespace Machine

variable {M : Machine} {c : Syscall} {w : World Fs} {T T' : Tree}

/-- The kernel does not refuse the call. -/
def Grants (M : Machine) (c : Syscall) : Prop := ∀ n, M.fault n c = none

/-- A call either fails and changes nothing, or does what `exec` says.  It fails for a reason that
the tree shows, unless the kernel refuses it. -/
lemma call_cases (M : Machine) (c : Syscall) (w : World Fs) :
    (∃ e w', call M.kernel c w = (.fail e, w') ∧ (M.Grants c → ∃ errno, M.exec c w.tree = .error errno ∧
      e = usbgTranslateError errno) ∧ w'.tree = w.tree ∧ w'.next = w.next) ∨
    ∃ a w', call M.kernel c w = (.ok a, w') ∧ M.exec c w.tree = .ok (a, w'.tree) ∧
      w'.next = w.next := by
  rw [call, kernel]
  dsimp only
  rcases hf : M.fault w.sys.log.length c with _ | e
  · have hT : w.sys.tree = w.tree := rfl
    rw [hT]
    rcases M.exec c w.tree with e | ⟨a, T⟩
    · exact .inl ⟨_, _, rfl, fun _ => ⟨e, rfl, rfl⟩, rfl, rfl⟩
    · exact .inr ⟨a, _, rfl, rfl, rfl⟩
  · exact .inl ⟨_, _, rfl, fun h => absurd hf (by simp [h _]), rfl, rfl⟩

/-- How a call ends, by what `exec` says. -/
lemma ends_call {Q : c.Ret → World Fs → Prop} {E : UsbgError → World Fs → Prop} {U : Prop}
    (hok : ∀ a w', M.exec c w.tree = .ok (a, w'.tree) → w'.next = w.next → Q a w')
    (hfail : ∀ e w', (M.Grants c → ∃ errno, M.exec c w.tree = .error errno ∧
      e = usbgTranslateError errno) → w'.tree = w.tree → w'.next = w.next → E e w') :
    Ends Q E U (call M.kernel c w) := by
  rcases M.call_cases c w with ⟨e, w', h, hwhy, ht, hn⟩ | ⟨a, w', h, ht, hn⟩
  · rw [h]
    exact hfail e w' hwhy ht hn
  · rw [h]
    exact hok a w' ht hn

/-- A call whose `errno` is looked at, with the fault that its number has. -/
lemma ends_rawCall {Q : Except Errno c.Ret → World Fs → Prop} {E : UsbgError → World Fs → Prop} {U : Prop}
    (hok : ∀ a w', M.fault w.sys.log.length c = none → M.exec c w.tree = .ok (a, w'.tree) →
      w'.sys.log = c :: w.sys.log → Q (.ok a) w')
    (herr : ∀ e w', (M.fault w.sys.log.length c = some e ∨
      M.fault w.sys.log.length c = none ∧ M.exec c w.tree = .error e) → w'.tree = w.tree →
      w'.sys.log = c :: w.sys.log → Q (.error e) w') :
    Ends Q E U (rawCall M.kernel c w) := by
  have hT : w.sys.tree = w.tree := rfl
  rw [rawCall, kernel]
  dsimp only
  rcases hf : M.fault w.sys.log.length c with _ | e
  · rw [hT]
    rcases hexec : M.exec c w.tree with e | ⟨a, T⟩
    · exact herr e _ (.inr ⟨hf, hexec⟩) rfl rfl
    · exact hok a _ hf hexec rfl
  · exact herr e _ (.inl hf) rfl rfl

/-- A call, with the `errno` that its error stands for. -/
lemma ends_call_errno {Q : c.Ret → World Fs → Prop} {E : UsbgError → World Fs → Prop} {U : Prop}
    (hok : ∀ a w', M.exec c w.tree = .ok (a, w'.tree) → Q a w')
    (hfail : ∀ errno w', ((∃ n, M.fault n c = some errno) ∨ M.exec c w.tree = .error errno) →
      w'.tree = w.tree → E (usbgTranslateError errno) w') :
    Ends Q E U (call M.kernel c w) := by
  rw [call_eq]
  exact Ends.bind_then (ends_rawCall (fun a w' _ hexec _ => hok a w' hexec) fun e w' hwhy ht _ =>
    hfail e w' (hwhy.imp (fun hf => ⟨_, hf⟩) fun hf => hf.2) ht)

/-- A call, with the fault that its number has. -/
lemma ends_numberedCall {Q : c.Ret → World Fs → Prop} {E : UsbgError → World Fs → Prop} {U : Prop}
    (hok : ∀ a w', M.fault w.sys.log.length c = none → M.exec c w.tree = .ok (a, w'.tree) →
      w'.sys.log = c :: w.sys.log → Q a w')
    (hfail : ∀ e w', (M.fault w.sys.log.length c = none → ∃ errno, M.exec c w.tree = .error errno) →
      w'.tree = w.tree → w'.sys.log = c :: w.sys.log → E e w') :
    Ends Q E U (call M.kernel c w) := by
  rw [call_eq]
  refine Ends.bind_then (ends_rawCall hok fun e w' hwhy ht hlog => hfail _ w' (fun hf => ?_) ht hlog)
  rcases hwhy with hf' | ⟨-, hexec⟩
  · rw [hf] at hf'
    cases hf'
  · exact ⟨e, hexec⟩

/-- A call whose result is ignored either changes nothing or does what `exec` says. -/
lemma ends_tryCall {Q : Unit → World Fs → Prop} {E : UsbgError → World Fs → Prop} {U : Prop}
    (hok : ∀ a w', M.exec c w.tree = .ok (a, w'.tree) → Q () w')
    (hfail : ∀ w', (M.Grants c → ∃ errno, M.exec c w.tree = .error errno) → w'.tree = w.tree → Q () w') :
    Ends Q E U (tryCall M.kernel c w) := by
  have hsame : (tryCall M.kernel c w) = (.ok (), (call M.kernel c w).2) := rfl
  rw [hsame]
  rcases M.call_cases c w with ⟨e, w', h, hwhy, ht, -⟩ | ⟨a, w', h, ht, -⟩
  · rw [h]
    exact hfail w' (fun hg => (hwhy hg).imp fun _ h => h.1) ht
  · rw [h]
    exact hok a w' ht

/-- A call whose result is ignored, with the fault that its number has. -/
lemma ends_numberedTryCall {Q : Unit → World Fs → Prop} {E : UsbgError → World Fs → Prop} {U : Prop}
    (hok : ∀ a w', M.exec c w.tree = .ok (a, w'.tree) → w'.sys.log = c :: w.sys.log → Q () w')
    (hfail : ∀ w', (M.fault w.sys.log.length c = none → ∃ errno, M.exec c w.tree = .error errno) →
      w'.tree = w.tree → w'.sys.log = c :: w.sys.log → Q () w') :
    Ends Q E U (tryCall M.kernel c w) := by
  have hcall : Ends (fun _ => Q ()) (fun _ => Q ()) False (call M.kernel c w) :=
    ends_numberedCall (fun a w' _ hexec hlog => hok a w' hexec hlog) fun _ w' hwhy ht hlog => hfail w' hwhy ht hlog
  have hsame : tryCall M.kernel c w = (.ok (), (call M.kernel c w).2) := rfl
  rw [hsame]
  rcases hc : call M.kernel c w with ⟨_ | _ | _, w'⟩ <;> rw [hc] at hcall
  · exact hcall
  · exact hcall
  · exact hcall.elim

/-- A call that the kernel does not refuse does what `exec` says. -/
lemma call_ok {a : c.Ret} (hf : M.Grants c) (h : M.exec c w.tree = .ok (a, T)) :
    ∃ w', call M.kernel c w = (.ok a, w') ∧ w'.tree = T ∧ w'.next = w.next := by
  refine ⟨{ w with sys := { tree := T, log := c :: w.sys.log } }, ?_, rfl, rfl⟩
  have hT : w.sys.tree = w.tree := rfl
  rw [call, kernel]
  dsimp only
  rw [hf, hT, h]

/-- Every call is remembered. -/
lemma log_kernel (M : Machine) (c : Syscall) (fs : Fs) : (M.kernel.call c fs).2.log = c :: fs.log := by
  rw [kernel]
  dsimp only
  split
  · rfl
  · split <;> rfl

lemma log_call {r : Outcome UsbgError c.Ret} {w' : World Fs} (h : call M.kernel c w = (r, w')) :
    w'.sys.log = c :: w.sys.log := by
  have hlog := log_kernel M c w.sys
  rw [call, Prod.mk.injEq] at h
  rw [← h.2, ← hlog]

/-- The calls that have been made stay in the log. -/
lemma stable_log (M : Machine) (l : List Syscall) : StableUp M.kernel [] fun w => l <:+ w.sys.log :=
  { Stable.of_calls (fun c w _ h => by
      dsimp only
      rw [log_kernel]
      exact h.trans (List.suffix_cons ..)) fun _ h => h with
    atMkdir := fun q w _ h => by
      dsimp only
      rw [log_kernel]
      exact h.trans (List.suffix_cons ..) }

/-- The same for a call that the kernel does not refuse this time. -/
lemma numberedCall_ok {a : c.Ret} (hf : M.fault w.sys.log.length c = none) (h : M.exec c w.tree = .ok (a, T)) :
    ∃ w', call M.kernel c w = (.ok a, w') := by
  refine ⟨{ w with sys := { tree := T, log := c :: w.sys.log } }, ?_⟩
  have hT : w.sys.tree = w.tree := rfl
  rw [call, kernel]
  dsimp only
  rw [hf, hT, h]

/-! ### When a call succeeds -/

lemma map_eq_ok {ε α β : Type} {x : Except ε α} {f : α → β} {b : β} :
    x.map f = .ok b ↔ ∃ a, x = .ok a ∧ f a = b := by
  cases x <;> simp [Except.map]

/-- A check at the head of a function that succeeds has been passed. -/
lemma check_eq_ok {ε α : Type} {c : Prop} [Decidable c] {e : ε} {x : Except ε α} {a : α} :
    (if c then .error e else x) = .ok a ↔ ¬ c ∧ x = .ok a := by
  by_cases h : c <;> simp [h]

section Operations

variable {p q target : Path} {text data content : CStr} {ds : List Dirent}

lemma opendir_eq_ok : opendir T p = .ok () ↔ T.IsDir p := by
  rw [opendir]
  split <;> simp_all

lemma readDir_eq_ok : readDir T p = .ok ds ↔
    T.IsDir p ∧ ds = (T.children p).map fun e => { name := e.1, isLink := e.2.isLink } := by
  rw [readDir]
  split <;> simp_all [eq_comm]

lemma readLink_eq_ok : readLink T p = .ok text ↔ ∃ t, T.get p = some (.link text t) := by
  rw [readLink]
  split <;> simp_all

lemma readFile_eq_ok : readFile T p = .ok content ↔ T.get p = some (.file content) := by
  rw [readFile]
  split <;> simp_all

lemma writeFile_eq_ok : writeFile T p data = .ok T' ↔
    (∃ content, T.get p = some (.file content)) ∧ T' = T.replace p (.file data) := by
  rw [writeFile]
  rcases T.get p with _ | (_ | _ | _) <;> simp [eq_comm]

lemma mkdir_eq_ok : M.mkdir T p = .ok T' ↔ T.get p = none ∧ T.IsDir p.dropLast ∧
    ProperName (p.getLastD []) ∧ T' = T.addAll (M.newDir p) := by
  rw [mkdir, check_eq_ok, check_eq_ok, check_eq_ok, not_not, not_not, Option.not_isSome_iff_eq_none,
    Except.ok.injEq, @eq_comm _ T']

lemma rmdir_eq_ok : rmdir T p = .ok T' ↔
    T.get p = some (.dir true) ∧ ¬ T.MadeBelow p ∧ ¬ T.Pinned p ∧ T' = T.prune p := by
  rw [rmdir]
  rcases T.get p with _ | (made | _ | _)
  · simp
  · dsimp only
    rw [check_eq_ok, check_eq_ok, check_eq_ok, Except.ok.injEq, @eq_comm _ T']
    cases made <;> simp
  · simp
  · simp

lemma unlink_eq_ok : unlink T p = .ok T' ↔
    (∃ text target, T.get p = some (.link text target)) ∧ T' = T.erase p := by
  rw [unlink]
  rcases T.get p with _ | (_ | _ | _) <;> simp [eq_comm]

lemma symlink_eq_ok : symlink T text target p = .ok T' ↔ T.get p = none ∧ T.IsDir p.dropLast ∧
    ProperName (p.getLastD []) ∧ T.IsDir target ∧ T' = T.add p (.link text target) := by
  rw [symlink, check_eq_ok, check_eq_ok, check_eq_ok, check_eq_ok, not_not, not_not, not_not,
    Option.not_isSome_iff_eq_none, Except.ok.injEq, @eq_comm _ T']

/-- What is at a path after a directory has been made. -/
lemma get_newDir (M : Machine) (T : Tree) (p q : Path) : (T.addAll (M.newDir p)).get q =
    (T.get q).or (((M.newDir p).find? (·.1 = q)).map Prod.snd) :=
  FileTree.get_addAll _ q

/-- A new directory is made by the user; everything in it is the kernel's. -/
lemma get_newDir_self (h : T.get p = none) : (T.addAll (M.newDir p)).get p = some (.dir true) := by
  rw [get_newDir, h, newDir, find?_key_cons, if_pos rfl]
  rfl

lemma find?_newDir_of_not_prefix (h : ¬ p <+: q) : (M.newDir p).find? (·.1 = q) = none := by
  rw [List.find?_eq_none]
  intro e he
  simp only [decide_eq_true_eq]
  rintro rfl
  rcases List.mem_cons.mp he with rfl | he
  · exact h List.prefix_rfl
  · obtain ⟨e', _, rfl⟩ := List.mem_map.mp he
    exact h (List.prefix_append ..)

lemma get_newDir_outside (h : ¬ p <+: q) : (T.addAll (M.newDir p)).get q = T.get q := by
  rw [get_newDir, find?_newDir_of_not_prefix h, Option.map_none, Option.or_none]

lemma made_newDir {n : Node CStr CStr} (h : (T.addAll (M.newDir p)).get q = some n)
    (hn : n.made = true) (hq : q ≠ p) : T.get q = some n := by
  rw [get_newDir, newDir, find?_key_cons, if_neg (Ne.symm hq)] at h
  cases hT : T.get q with
  | some n' =>
    rw [hT] at h
    exact h
  | none =>
    rw [hT, Option.none_or] at h
    obtain ⟨e, he, rfl⟩ := Option.map_eq_some_iff.mp h
    obtain ⟨e', -, rfl⟩ := List.mem_map.mp (List.mem_of_find?_eq_some he)
    rcases e' with ⟨_, _ | _⟩
    · simp [groupNode] at hn
    · simp [groupNode] at hn

/-- A call changes the tree only at the path it is about and below. -/
lemma exec_outside {c : Syscall} {a : c.Ret} (h : M.exec c T = .ok (a, T'))
    (hp : p <+: c.path.resolve) (hq : ¬ p <+: q) : T'.get q = T.get q := by
  have hne : ∀ {r : Path}, p <+: r → q ≠ r := fun hr he => hq (he ▸ hr)
  have hnp : ∀ {r : Path}, p <+: r → ¬ r <+: q := fun hr hc => hq (hr.trans hc)
  have hrmdir : ∀ {r T'}, p <+: r → rmdir T r = .ok T' → T'.get q = T.get q := by
    intro r T' hr h
    obtain ⟨-, -, -, rfl⟩ := rmdir_eq_ok.mp h
    rw [FileTree.get_prune, if_neg (hnp hr)]
  have hunlink : ∀ {r T'}, p <+: r → unlink T r = .ok T' → T'.get q = T.get q := by
    intro r T' hr h
    obtain ⟨-, rfl⟩ := unlink_eq_ok.mp h
    rw [FileTree.get_erase, if_neg (hne hr)]
  -- the calls that read change nothing, the others what is at or below their path
  cases c with
  | opendir | scandir | readlink | read | nftw =>
    obtain ⟨_, -, hT⟩ := map_eq_ok.mp h
    rw [(Prod.mk.inj hT).2]
  | write path data =>
    obtain ⟨T₁, h, hT⟩ := map_eq_ok.mp h
    obtain ⟨-, rfl⟩ := writeFile_eq_ok.mp h
    rw [← (Prod.mk.inj hT).2, FileTree.get_replace, if_neg (hne (r := path.resolve) hp)]
  | mkdir path =>
    obtain ⟨T₁, h, hT⟩ := map_eq_ok.mp h
    obtain ⟨-, -, -, rfl⟩ := mkdir_eq_ok.mp h
    rw [← (Prod.mk.inj hT).2, get_newDir_outside (hnp (r := path.resolve) hp)]
  | rmdir path =>
    obtain ⟨T₁, h, hT⟩ := map_eq_ok.mp h
    rw [← (Prod.mk.inj hT).2, hrmdir hp h]
  | unlink path =>
    obtain ⟨T₁, h, hT⟩ := map_eq_ok.mp h
    rw [← (Prod.mk.inj hT).2, hunlink hp h]
  | symlink target path =>
    obtain ⟨T₁, h, hT⟩ := map_eq_ok.mp h
    obtain ⟨-, -, -, -, rfl⟩ := symlink_eq_ok.mp h
    rw [← (Prod.mk.inj hT).2, FileTree.get_add, if_neg (Ne.symm (hne (r := path.resolve) hp)),
      Option.or_none]
  | stat path =>
    rw [exec] at h
    split at h <;> cases h
    rfl
  | remove path =>
    obtain ⟨T₁, h, hT⟩ := map_eq_ok.mp h
    rw [← (Prod.mk.inj hT).2]
    rw [remove] at h
    split at h
    · exact hrmdir hp h
    · exact hunlink hp h

end Operations

section Exec

variable {p q : Path} {u : Unit} {data : CStr} {ds : List Dirent} {text : CStr}

lemma map_ret_eq_ok {α : Type} {x : Except Errno α} {a : α} :
    x.map (·, T) = .ok (a, T') ↔ x = .ok a ∧ T' = T := by
  cases x <;> simp [Except.map, eq_comm]

lemma map_tree_eq_ok {x : Except Errno Tree} : x.map ((), ·) = .ok (u, T') ↔ x = .ok T' := by
  cases x <;> simp [Except.map]

lemma exec_opendir : M.exec (.opendir p) T = .ok (u, T') ↔ T.IsDir p.resolve ∧ T' = T :=
  map_ret_eq_ok.trans (and_congr_left fun _ => opendir_eq_ok)

lemma exec_mkdir : M.exec (.mkdir p) T = .ok (u, T') ↔ M.mkdir T p.resolve = .ok T' :=
  map_tree_eq_ok

lemma exec_rmdir : M.exec (.rmdir p) T = .ok (u, T') ↔ rmdir T p.resolve = .ok T' :=
  map_tree_eq_ok

lemma exec_unlink : M.exec (.unlink p) T = .ok (u, T') ↔ unlink T p.resolve = .ok T' :=
  map_tree_eq_ok

lemma exec_symlink : M.exec (.symlink q p) T = .ok (u, T') ↔
    symlink T q.render q.resolve p.resolve = .ok T' :=
  map_tree_eq_ok

lemma exec_write : M.exec (.write p data) T = .ok (u, T') ↔ writeFile T p.resolve data = .ok T' :=
  map_tree_eq_ok

lemma exec_scandir : M.exec (.scandir p) T = .ok (ds, T') ↔
    readDir T p.resolve = .ok ds ∧ T' = T :=
  map_ret_eq_ok

lemma exec_read : M.exec (.read p) T = .ok (text, T') ↔
    readFile T p.resolve = .ok text ∧ T' = T :=
  map_ret_eq_ok

lemma exec_readlink : M.exec (.readlink p) T = .ok (text, T') ↔
    readLink T p.resolve = .ok text ∧ T' = T :=
  map_ret_eq_ok

end Exec

/-! ### Nothing happens elsewhere -/

/-- The trees agree outside of what is below `p`. -/
def Outside (p : Path) (T T' : Tree) : Prop := ∀ q, ¬ p <+: q → T'.get q = T.get q

lemma Outside.mono {p p' : Path} (h : Outside p T T') (hp : p' <+: p) : Outside p' T T' :=
  fun q hq => h q fun hpq => hq (hp.trans hpq)

lemma Outside.trans {p : Path} {T'' : Tree} (h : Outside p T T') (h' : Outside p T' T'') :
    Outside p T T'' :=
  fun q hq => (h' q hq).trans (h q hq)

lemma stable_outside (M : Machine) {p : Path} (hp : p.Clean) (T : Tree) :
    Stable M.kernel p fun w => Outside p T w.tree := by
  refine .of_calls (fun c w hc h q hq => ?_) fun _ h => h
  have hrun : (call M.kernel c w).2 = { w with sys := (M.kernel.call c w.sys).2 } := rfl
  rw [← hrun]
  rcases M.call_cases c w with ⟨e, w', hw, -, ht, -⟩ | ⟨a, w', hw, ht, -⟩
  · rw [hw, ht]
    exact h q hq
  · rw [hw, exec_outside ht (hp.prefix_resolve hc) hq]
    exact h q hq

/-! ### The helpers -/

section Helpers

variable {path : Path} {name : CStr}

/-- The names `scandir` lists. -/
def listing (T : Tree) (p : Path) (sel : Dirent → Bool) : List CStr :=
  ((((T.children p).map fun e => { name := e.1, isLink := e.2.isLink }).filter sel).map
    Dirent.name).insertionSort (· ≤ ·)

lemma mem_listing {p : Path} {sel : Dirent → Bool} :
    name ∈ listing T p sel ↔ ∃ n, T.get (p ++ [name]) = some n ∧ sel ⟨name, n.isLink⟩ = true := by
  rw [listing, List.mem_insertionSort, List.mem_map]
  constructor
  · rintro ⟨d, hd, rfl⟩
    obtain ⟨hd, hsel⟩ := List.mem_filter.mp hd
    obtain ⟨⟨name, n⟩, hn, rfl⟩ := List.mem_map.mp hd
    exact ⟨n, FileTree.mem_children.mp hn, hsel⟩
  · rintro ⟨n, hn, hsel⟩
    refine ⟨⟨name, n.isLink⟩, List.mem_filter.mpr ⟨?_, hsel⟩, rfl⟩
    exact List.mem_map.mpr ⟨(name, n), FileTree.mem_children.mpr hn, rfl⟩

/-- A listing is in order and names nothing twice. -/
lemma listing_pairwise (T : Tree) (p : Path) (sel : Dirent → Bool) :
    (listing T p sel).Pairwise (· < ·) := by
  have hnodup : (listing T p sel).Nodup := by
    refine (List.perm_insertionSort _ _).nodup_iff.mpr ?_
    refine ((List.filter_sublist (p := sel)).map _).nodup ?_
    rw [List.map_map]
    exact FileTree.nodup_children
  exact ((List.pairwise_insertionSort (· ≤ ·) _).and hnodup).imp fun h => lt_of_le_of_ne h.1 h.2

lemma ends_scandir {sel : Dirent → Bool} {Q : List CStr → World Fs → Prop}
    {E : UsbgError → World Fs → Prop} {U : Prop}
    (hok : ∀ w', w'.tree = w.tree → w'.next = w.next → w.tree.IsDir path.resolve →
      Q (listing w.tree path.resolve sel) w')
    (hfail : ∀ e w', (M.Grants (.scandir path) → ¬ w.tree.IsDir path.resolve ∧ e = .notFound) →
      w'.tree = w.tree → w'.next = w.next → E e w') :
    Ends Q E U (scandir M.kernel path sel w) := by
  rw [scandir]
  rcases M.call_cases (.scandir path) w with ⟨e, w', hw, hwhy, ht, hn⟩ | ⟨ds, w', hw, ht, hn⟩
  · refine Ends.of_eq (bind_fail hw) (hfail e w' (fun hg => ?_) ht hn)
    obtain ⟨errno, he, rfl⟩ := hwhy hg
    rw [exec, readDir] at he
    split at he
    · cases he
    · next hdir =>
      obtain rfl : _ = errno := Except.error.inj he
      exact ⟨hdir, by cases w.tree.get path.resolve <;> rfl⟩
  · obtain ⟨hds, hsame⟩ := exec_scandir.mp ht
    obtain ⟨hdir, rfl⟩ := readDir_eq_ok.mp hds
    exact Ends.of_eq (bind_ok hw) (hok w' hsame hn hdir)

/-- The entries of a directory, in the order in which the kernel has them. -/
lemma ends_entries {Q : List Dirent → World Fs → Prop} {E : UsbgError → World Fs → Prop} {U : Prop}
    (hok : ∀ ds w', w.tree.IsDir path.resolve → (∀ e : Dirent, e ∈ ds ↔
      ∃ n, w.tree.get (path.resolve ++ [e.name]) = some n ∧ e.isLink = n.isLink) →
        w'.tree = w.tree → w'.next = w.next → Q ds w')
    (hfail : ∀ e w', (M.Grants (.scandir path) → ¬ w.tree.IsDir path.resolve) →
      w'.tree = w.tree → w'.next = w.next → E e w') :
    Ends Q E U (call M.kernel (.scandir path) w) := by
  rcases M.call_cases (.scandir path) w with ⟨e, w', hw, hwhy, ht, hn⟩ | ⟨ds, w', hw, ht, hn⟩
  · rw [hw]
    refine hfail e w' (fun hg hdir => ?_) ht hn
    obtain ⟨errno, hexec, -⟩ := hwhy hg
    rw [exec, readDir, if_pos hdir] at hexec
    cases hexec
  · rw [hw]
    obtain ⟨hds, hsame⟩ := exec_scandir.mp ht
    obtain ⟨hdir, rfl⟩ := readDir_eq_ok.mp hds
    refine hok _ w' hdir (fun e => ?_) hsame hn
    rw [List.mem_map]
    constructor
    · rintro ⟨⟨name, n⟩, hn, rfl⟩
      exact ⟨n, FileTree.mem_children.mp hn, rfl⟩
    · rintro ⟨n, hn, hlink⟩
      exact ⟨(e.name, n), FileTree.mem_children.mpr hn, by rw [← hlink]⟩

lemma ends_mkdir {Q : Unit → World Fs → Prop} {E : UsbgError → World Fs → Prop} {U : Prop}
    (hok : ∀ w', M.mkdir w.tree path.resolve = .ok w'.tree → w'.next = w.next → Q () w')
    (hfail : ∀ e w', w'.tree = w.tree → w'.next = w.next → E e w') :
    Ends Q E U (call M.kernel (.mkdir path) w) :=
  ends_call (fun _ w' h hn => hok w' (exec_mkdir.mp h) hn) fun e w' _ => hfail e w'

lemma ends_rmdir {Q : Unit → World Fs → Prop} {E : UsbgError → World Fs → Prop} {U : Prop}
    (hok : ∀ w', rmdir w.tree path.resolve = .ok w'.tree → w'.next = w.next → Q () w')
    (hfail : ∀ e w', (M.Grants (.rmdir path) → ∃ errno, M.exec (.rmdir path) w.tree = .error errno) →
      w'.tree = w.tree → w'.next = w.next → E e w') :
    Ends Q E U (call M.kernel (.rmdir path) w) :=
  ends_call (fun _ w' h hn => hok w' (exec_rmdir.mp h) hn)
    fun e w' hwhy => hfail e w' fun hg => (hwhy hg).imp fun _ h => h.1

/-- The kernel does not answer the call for a path that fits, although the tree allows it. -/
def Refuses (M : Machine) (c : Syscall) (T : Tree) : Prop :=
  c.path.Fits → M.Grants c → ∃ e, M.exec c T = .error e

lemma ends_usbgRmDir {Q : Unit → World Fs → Prop} {E : UsbgError → World Fs → Prop} {U : Prop}
    (hok : ∀ w', rmdir w.tree (path ++ [name]).resolve = .ok w'.tree → w'.next = w.next → Q () w')
    (hfail : ∀ e w', M.Refuses (.rmdir (path ++ [name])) w.tree → w'.tree = w.tree →
      w'.next = w.next → E e w') :
    Ends Q E U (usbgRmDir M.kernel path name w) :=
  Ends.require_bind (fun _ => ends_call (fun _ w' h hn => hok w' (exec_rmdir.mp h) hn)
    fun e w' hwhy => hfail e w' fun _ hg => (hwhy hg).imp fun _ h => h.1) fun hfits => hfail _ _ (absurd · hfits) rfl rfl

lemma ends_write {data : CStr} {Q : Unit → World Fs → Prop} {E : UsbgError → World Fs → Prop} {U : Prop}
    (hok : ∀ w', (∃ content, w.tree.get path.resolve = some (.file content)) →
      w'.tree = w.tree.replace path.resolve (.file data) → w'.next = w.next → Q () w')
    (hfail : ∀ e w', w'.tree = w.tree → w'.next = w.next → E e w') :
    Ends Q E U (call M.kernel (.write path data) w) := by
  have hwrite : ∀ w', M.exec (.write path data) w.tree = .ok ((), w'.tree) → w'.next = w.next → Q () w' := by
    intro w' h hn
    obtain ⟨hfile, ht⟩ := writeFile_eq_ok.mp (exec_write.mp h)
    exact hok w' hfile ht hn
  exact ends_call (fun _ => hwrite) fun e w' _ => hfail e w'

lemma ends_usbgWriteBuf {file data : CStr} {Q : Unit → World Fs → Prop} {E : UsbgError → World Fs → Prop}
    {U : Prop}
    (hok : ∀ w', (∃ content, w.tree.get (path ++ [name, file]).resolve = some (.file content)) →
      w'.tree = w.tree.replace (path ++ [name, file]).resolve (.file data) → w'.next = w.next → Q () w')
    (hfail : ∀ e w', w'.tree = w.tree → w'.next = w.next → E e w') :
    Ends Q E U (usbgWriteBuf M.kernel path name file data w) :=
  Ends.require_bind (fun _ => ends_write hok hfail) fun _ => hfail _ _ rfl rfl

/-- Reading a file. -/
lemma usbgReadBufLimited_ends {file : CStr} {len : ℕ} :
    Ends (fun buf w' => (path ++ [name, file]).Fits ∧ w'.tree = w.tree ∧ ∃ content,
        w.tree.get (path ++ [name, file]).resolve = some (.file content) ∧ buf = content.take len)
      (fun _ w' => w'.tree = w.tree) False (usbgReadBufLimited M.kernel path name file len w) := by
  refine Ends.require_bind (fun hfits => ?_) fun _ => rfl
  refine Ends.bind (R := fun content w' => w'.tree = w.tree ∧
    w.tree.get (path ++ [name, file]).resolve = some (.file content)) ?_ ?_
  · refine ends_call (c := .read (path ++ [name, file])) (fun content w' h _ => ?_) fun e w' _ ht _ => ht
    obtain ⟨hfile, ht⟩ := exec_read.mp h
    exact ⟨ht, readFile_eq_ok.mp hfile⟩
  · rintro content w' ⟨ht, hfile⟩
    exact ⟨hfits, ht, content, hfile, rfl⟩

/-- Reading a number: the rest of the buffer is read with it. -/
lemma usbgReadInt_ends {file : CStr} {base : ℕ} :
    Ends (fun v w' => w'.tree = w.tree ∧ ∃ content stale,
        w.tree.get (path ++ [name, file]).resolve = some (.file content) ∧
          v = toInt (strtol base (ofBuffer (content.take usbgMaxStrLength ++ stale))).value)
      (fun _ w' => w'.tree = w.tree) False (usbgReadInt M.kernel path name file base w) := by
  refine Ends.bind usbgReadBufLimited_ends ?_
  rintro _ w' ⟨-, ht, content, hfile, rfl⟩
  exact ⟨ht, content, _, hfile, rfl⟩

lemma ends_usbgRmFile {Q : Unit → World Fs → Prop} {E : UsbgError → World Fs → Prop} {U : Prop}
    (hok : ∀ w', unlink w.tree (path ++ [name]).resolve = .ok w'.tree → w'.next = w.next → Q () w')
    (hfail : ∀ e w', M.Refuses (.unlink (path ++ [name])) w.tree → w'.tree = w.tree →
      w'.next = w.next → E e w') :
    Ends Q E U (usbgRmFile M.kernel path name w) :=
  Ends.require_bind (fun _ => ends_call (fun _ w' h hn => hok w' (exec_unlink.mp h) hn)
    fun e w' hwhy => hfail e w' fun _ hg => (hwhy hg).imp fun _ h => h.1) fun hfits => hfail _ _ (absurd · hfits) rfl rfl

end Helpers

end Machine

end Libusbgx
