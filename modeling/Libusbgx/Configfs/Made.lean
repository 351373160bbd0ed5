import Libusbgx.Configfs.Shape

/-!
# What the user has made

A call changes what the user has made at one path at most, its own.  The objects of the library stand for
directories and links at certain places; most calls work elsewhere and leave these places as they are.
-/

namespace Libusbgx

open Prog Machine

variable {M : Machine} {c : Syscall} {w : World Fs} {T T' T'' : Tree} {p q : Path} {cfg : CStr}

/-! ## Changes -/

namespace Machine.Change

/-- Nothing is made or taken away elsewhere. -/
lemma made_of_ne (h : Change M T c T') (hq : q ≠ c.path.resolve) : T'.made q = T.made q := by
  cases h with
  | same => rfl
  | write => exact FileTree.made_congr ((FileTree.get_replace ..).trans (if_neg hq))
  | mkdir path =>
    cases hT : T.get q with
    | some n => exact FileTree.made_congr ((get_newDir_of_get hT).trans hT.symm)
    | none =>
      rw [FileTree.made_of_get_none hT, FileTree.made_eq_none]
      intro n hn
      by_contra hmade
      -- the groups of the new directory are not made by the user
      have hold := made_newDir hn (by simpa using hmade) hq
      rw [hT] at hold
      cases hold
  | symlink target path =>
    refine FileTree.made_congr ?_
    have hne : path.resolve ≠ q := Ne.symm hq
    rw [FileTree.get_add, if_neg hne, Option.or_none]
  | rmdir _ _ _ hempty =>
    by_cases hpre : c.path.resolve <+: q
    · -- nothing that the user has made is in the directory
      have hgone : (T.prune c.path.resolve).made q = none :=
        FileTree.made_of_get_none ((FileTree.get_prune ..).trans (if_pos hpre))
      rw [hgone]
      by_contra hne
      exact hempty (FileTree.madeBelow_iff_made.mpr ⟨q, hpre, hq, Ne.symm hne⟩)
    · exact FileTree.made_congr ((FileTree.get_prune ..).trans (if_neg hpre))
  | unlink => exact FileTree.made_congr ((FileTree.get_erase ..).trans (if_neg hq))

/-- Where something is, nothing is made; it can only be taken away. -/
lemma made_of_get (h : Change M T c T') (hr : ¬ c.Removes) (hget : T.get c.path.resolve ≠ none) (q : Path) :
    T'.made q = T.made q := by
  by_cases hq : q = c.path.resolve
  · cases h with
    | same => rfl
    | write path data content hfile =>
      obtain rfl : q = path.resolve := hq
      have hdata : (T.replace path.resolve (.file data)).get path.resolve = some (.file data) := by
        rw [FileTree.get_replace, if_pos rfl, hfile]
        rfl
      rw [FileTree.made, FileTree.made, hfile, hdata]
      rfl
    | mkdir _ _ _ hfree => exact absurd hfree hget
    | symlink _ _ _ _ hfree => exact absurd hfree hget
    | rmdir _ hc => exact absurd hc hr
    | unlink _ hc => exact absurd hc hr
  · exact h.made_of_ne hq

/-- Writing changes one file. -/
lemma of_write {data : CStr} (h : Change M T (.write p data) T') :
    T' = T ∨ ∃ content, T.get p.resolve = some (.file content) ∧ T' = T.replace p.resolve (.file data) := by
  cases h with
  | same => exact .inl rfl
  | write _ _ content hfile => exact .inr ⟨content, hfile, rfl⟩
  | rmdir _ hc => exact hc.elim
  | unlink _ hc => exact hc.elim

end Machine.Change

/-! ## Places -/

/-- Where the objects of a gadget are, below its directory: configurations, functions, bindings, and the link
to the configuration with the OS descriptors. -/
def Place : Path → Prop
  | [] => True
  | [x, _] => x = configsDir ∨ x = functionsDir ∨ x = osDescDir
  | [x, _, _] => x = configsDir
  | _ => False

/-- The same things are made at these places. -/
def SamePlaces (T T' : Tree) : Prop := ∀ q, Place (q.drop 3) → T'.made q = T.made q

lemma SamePlaces.refl (T : Tree) : SamePlaces T T := fun _ _ => rfl

lemma SamePlaces.trans (h : SamePlaces T T') (h' : SamePlaces T' T'') : SamePlaces T T'' := fun q hq =>
  (h' q hq).trans (h q hq)

lemma samePlaces_of_eq (h : T' = T) : SamePlaces T T' := h ▸ SamePlaces.refl T

/-- No call below a path that leads past these places touches them. -/
lemma stable_samePlaces (hp : p.Clean) (hplace : ∀ r, ¬ Place ((p ++ r).drop 3)) (T : Tree) :
    Stable M.kernel p fun w => SamePlaces T w.tree := by
  refine stable_of_change (P := SamePlaces T) fun c T₁ T₂ hc hch h q hq => ?_
  refine (hch.made_of_ne ?_).trans (h q hq)
  rintro rfl
  obtain ⟨r, hr⟩ := hp.prefix_resolve hc
  rw [← hr] at hq
  exact hplace r hq

/-! ## One place -/

/-- Of what is made at the places only that at `p` changes: it is `o` afterwards. -/
def PlaceSet (p : Path) (o : Option (Node CStr CStr)) (T T' : Tree) : Prop :=
  ∀ q, Place (q.drop 3) → T'.made q = if q = p then o else T.made q

namespace PlaceSet

variable {o : Option (Node CStr CStr)}

lemma self (h : PlaceSet p o T T') (hp : Place (p.drop 3)) : T'.made p = o := (h p hp).trans (if_pos rfl)

lemma of_ne (h : PlaceSet p o T T') (hq : Place (q.drop 3)) (hne : q ≠ p) : T'.made q = T.made q :=
  (h q hq).trans (if_neg hne)

lemma trans {o' : Option (Node CStr CStr)} (h : PlaceSet p o T T')
    (h' : PlaceSet p o' T' T'') : PlaceSet p o' T T'' := by
  intro q hq
  rw [h' q hq]
  by_cases hqp : q = p
  · rw [if_pos hqp, if_pos hqp]
  · rw [if_neg hqp, if_neg hqp, h.of_ne hq hqp]

/-- What comes after the change leaves the places alone. -/
lemma same (h : PlaceSet p o T T') (h' : SamePlaces T' T'') : PlaceSet p o T T'' := fun q hq =>
  (h' q hq).trans (h q hq)

end PlaceSet

lemma Machine.Change.placeSet (h : Change M T c T') : PlaceSet c.path.resolve (T'.made c.path.resolve) T T' := by
  intro q _
  by_cases hq : q = c.path.resolve
  · rw [if_pos hq, hq]
  · rw [if_neg hq]
    exact h.made_of_ne hq

/-- The library has worked below `d`: the tree has kept its shape, and nothing has happened elsewhere. -/
structure Within (cfg : CStr) (d : Path) (w w' : World Fs) : Prop where
  shaped : Shaped cfg w'.tree
  outside : Outside d w.tree w'.tree
  next : w.next ≤ w'.next

namespace Within

variable {d d' : Path} {w' w'' : World Fs}

lemma refl (h : Shaped cfg w.tree) (d : Path) : Within cfg d w w := ⟨h, fun _ _ => rfl, le_refl _⟩

lemma trans (h : Within cfg d w w') (h' : Within cfg d w' w'') : Within cfg d w w'' :=
  ⟨h'.shaped, h.outside.trans h'.outside, h.next.trans h'.next⟩

lemma mono (h : Within cfg d w w') (hd : d' <+: d) : Within cfg d' w w' := ⟨h.shaped, h.outside.mono hd, h.next⟩

/-- A call that has failed. -/
lemma of_eq (h : Shaped cfg w.tree) (ht : w'.tree = w.tree) (hn : w.next ≤ w'.next) : Within cfg d w w' :=
  ⟨ht ▸ h, fun _ _ => by rw [ht], hn⟩

end Within

/-- All calls below a path work below it. -/
lemma stable_within (hM : Configfs M cfg) {d : Path} (hd : d.Clean) (w : World Fs) :
    Stable M.kernel d (Within cfg d w) := by
  have hs : Stable M.kernel d fun w : World Fs => Shaped cfg w.tree := (stable_shaped hM d).toStable
  have ho := stable_outside M hd w.tree
  exact .of_calls (fun c w' hc h => ⟨hs.keeps_call (c := c) hc w' h.shaped, ho.keeps_call (c := c) hc w' h.outside,
    h.next⟩)
    fun w' h => ⟨h.shaped, h.outside, Nat.le_succ_of_le h.next⟩

/-- Work below `d` has left the places alone. -/
structure Beside (cfg : CStr) (d : Path) (w w' : World Fs) : Prop where
  within : Within cfg d w w'
  places : SamePlaces w.tree w'.tree

lemma Beside.refl (h : Shaped cfg w.tree) (d : Path) : Beside cfg d w w := ⟨.refl h d, .refl _⟩

/-- No call below a path that leads past the places touches them. -/
lemma stable_beside (hM : Configfs M cfg) {d : Path} (hd : d.Clean) (hp : p.Clean) (hdp : d <+: p)
    (hplace : ∀ r, ¬ Place ((p ++ r).drop 3)) (w : World Fs) : Stable M.kernel p (Beside cfg d w) := by
  have hin := stable_within hM hd w
  have hs := stable_samePlaces hp hplace w.tree (M := M)
  exact .of_calls (fun c w' hc h => ⟨hin.keeps_call (c := c) (hdp.trans hc) w' h.within,
    hs.keeps_call (c := c) hc w' h.places⟩) fun w' h => ⟨hin.atMalloc w' h.within, h.places⟩

/-- Writing changes nothing that is made. -/
lemma keeps_beside_usbgWriteBuf (hM : Configfs M cfg) {d path : Path} {name file buf : CStr} (hd : d.Clean)
    (hp : d <+: path ++ [name, file]) : Keeps (Beside cfg d w) (usbgWriteBuf M.kernel path name file buf) := by
  refine .bind (.require _) fun _ w' h => ?_
  refine ⟨(stable_within hM hd w).keeps_call (c := .write (path ++ [name, file]) buf) hp w' h.within, fun q hq => ?_⟩
  refine Eq.trans ?_ (h.places q hq)
  by_cases hfree : w'.tree.get (path ++ [name, file]).resolve = none
  · have hsame : (call M.kernel (.write (path ++ [name, file]) buf) w').2.tree = w'.tree := by
      have hch : Change M w'.tree (.write (path ++ [name, file]) buf)
        (call M.kernel (.write (path ++ [name, file]) buf) w').2.tree := kernel_change M _ w'
      rcases hch.of_write with ht | ⟨content, hfile, -⟩
      · exact ht
      · rw [hfree] at hfile
        cases hfile
    rw [hsame]
  · exact (kernel_change M (.write (path ++ [name, file]) buf) w').made_of_get id hfree q

/-- There is work in the directory of a function: it is there, and the places are left alone. -/
structure AtFunction (cfg : CStr) (d : Path) (x : CStr) (w w' : World Fs) : Prop where
  beside : Beside cfg d w w'
  dir : w'.tree.made (d ++ [functionsDir, x]) = some (.dir true)

/-- No call below the directory of a function, but its removal, touches the places. -/
lemma stable_atFunction (hM : Configfs M cfg) {d : Path} {x : CStr} (hp : (d ++ [functionsDir, x]).Clean)
    (hlen : d.length = 3) (w : World Fs) : StableUpIn M.kernel (d ++ [functionsDir, x]) (AtFunction cfg d x w) := by
  have hd : d.Clean := hp.of_prefix (List.prefix_append ..) (by rintro rfl; cases hlen)
  have hin := stable_within hM hd w
  refine { atCall := fun c w' hc hr hw => ?_, atMalloc := fun w' hw => ?_, atMkdir := fun q w' hq hw => ?_ }
  · have hch := kernel_change M c w'
    have hwithin := hin.keeps_call (c := c) ((List.prefix_append ..).trans hc) w' hw.beside.within
    by_cases heq : c.path.resolve = d ++ [functionsDir, x]
    · have hnot : ¬ c.Removes := fun hremoves => Under.resolve_not_below (hr hremoves) hp (heq ▸ List.prefix_rfl)
      have hget : w'.tree.get c.path.resolve ≠ none := by
        rw [heq, (FileTree.made_eq_some.mp hw.dir).1]
        simp
      exact ⟨⟨hwithin, fun q hq => (hch.made_of_get hnot hget q).trans (hw.beside.places q hq)⟩,
        (hch.made_of_get hnot hget _).trans hw.dir⟩
    · refine ⟨⟨hwithin, fun q hq => ?_⟩, (hch.made_of_ne (Ne.symm heq)).trans hw.dir⟩
      refine (hch.made_of_ne ?_).trans (hw.beside.places q hq)
      rintro rfl
      obtain ⟨r, hr⟩ := hp.prefix_resolve hc
      rw [← hr, List.append_assoc, ← hlen, List.drop_left] at hq
      -- the path of the call leads to something in the directory
      rcases r with - | ⟨y, r⟩
      · exact heq (by rw [← hr, List.append_nil])
      · rcases r with - | ⟨z, r⟩
        · exact functionsDir_ne_configsDir hq
        · exact hq
  · exact ⟨⟨hin.atMalloc w' hw.beside.within, hw.beside.places⟩, hw.dir⟩
  · -- the directories on the way are there already
    have hdir := (FileTree.made_eq_some.mp hw.dir).1
    have hsame : (M.kernel.call (.mkdir q) w'.sys).2.tree = w'.tree := by
      refine (kernel_change M (.mkdir q) w').mkdir_of_isDir ?_
      by_cases hq0 : q = []
      · exact .inl hq0
      refine .inr ?_
      rw [(hp.of_prefix hq hq0).2]
      by_cases hqp : q = d ++ [functionsDir, x]
      · rw [hqp]
        exact FileTree.isDir_iff.mpr ⟨true, hdir⟩
      · exact hw.beside.within.shaped.parents.isDir_of_prefix hdir hq hqp hq0
    have htree : ({ w' with sys := (M.kernel.call (.mkdir q) w'.sys).2 } : World Fs).tree = w'.tree := hsame
    exact ⟨⟨⟨htree ▸ hw.beside.within.shaped, htree ▸ hw.beside.within.outside, hw.beside.within.next⟩,
      htree ▸ hw.beside.places⟩, htree ▸ hw.dir⟩

section Calls

variable {d path : Path}

lemma made_rmdir (h : rmdir T p = .ok T') : T'.made p = none := by
  obtain ⟨-, -, -, rfl⟩ := rmdir_eq_ok.mp h
  exact FileTree.made_of_get_none ((FileTree.get_prune ..).trans (if_pos List.prefix_rfl))

lemma made_unlink (h : unlink T p = .ok T') : T'.made p = none := by
  obtain ⟨-, rfl⟩ := unlink_eq_ok.mp h
  exact FileTree.made_of_get_none ((FileTree.get_erase ..).trans (if_pos rfl))

lemma made_mkdir (h : M.mkdir T p = .ok T') : T'.made p = some (.dir true) := by
  obtain ⟨hfree, -, -, rfl⟩ := mkdir_eq_ok.mp h
  exact FileTree.made_eq_some.mpr ⟨get_newDir_self hfree, rfl⟩

lemma made_symlink {text : CStr} {t : Path} (h : symlink T text t p = .ok T') : T'.made p = some (.link text t) := by
  obtain ⟨hfree, -, -, -, rfl⟩ := symlink_eq_ok.mp h
  refine FileTree.made_eq_some.mpr ⟨?_, rfl⟩
  rw [FileTree.get_add, hfree, if_pos rfl]
  rfl

/-- A call changes what is made at its own place; a call that fails changes nothing. -/
lemma ends_call_within (hM : Configfs M cfg) (hd : d.Clean) (h : Shaped cfg w.tree) (hp : d <+: c.path) :
    Ends (fun a w' => (Within cfg d w w' ∧ M.exec c w.tree = .ok (a, w'.tree)) ∧
        PlaceSet c.path.resolve (w'.tree.made c.path.resolve) w.tree w'.tree)
      (fun _ w' => (Within cfg d w w' ∧ w'.tree = w.tree) ∧ (M.Grants c → ∃ e, M.exec c w.tree = .error e)) False
      (call M.kernel c w) := by
  have hin := (stable_within hM hd w).keeps_call hp w (.refl h d)
  have hch : Change M w.tree c (call M.kernel c w).2.tree := kernel_change M c w
  rcases M.call_cases c w with ⟨e, w', hw, hwhy, ht, -⟩ | ⟨a, w', hw, ht, -⟩ <;> rw [hw] at hin hch ⊢
  · exact ⟨⟨hin, ht⟩, fun hg => (hwhy hg).imp fun _ h => h.1⟩
  · exact ⟨⟨hin, ht⟩, hch.placeSet⟩

/-- Making a directory. -/
lemma ends_mkdir_within (hM : Configfs M cfg) (hd : d.Clean) (h : Shaped cfg w.tree) (hp : d <+: path) :
    Ends (fun _ w' => (Within cfg d w w' ∧ M.mkdir w.tree path.resolve = .ok w'.tree) ∧
        PlaceSet path.resolve (some (.dir true)) w.tree w'.tree)
      (fun _ w' => Within cfg d w w' ∧ w'.tree = w.tree) False (call M.kernel (.mkdir path) w) := by
  refine (ends_call_within hM hd h (c := .mkdir path) hp).mono ?_ fun _ _ ht => ht.1
  rintro _ w' ⟨⟨hin, hok⟩, hset⟩
  have hok := exec_mkdir.mp hok
  have hmade : w'.tree.made path.resolve = some (.dir true) := made_mkdir hok
  rw [← hmade]
  exact ⟨⟨hin, hok⟩, hset⟩

/-- Making a link. -/
lemma ends_symlink_within {target : Path} (hM : Configfs M cfg) (hd : d.Clean) (h : Shaped cfg w.tree)
    (hp : d <+: path) :
    Ends (fun _ w' => (Within cfg d w w' ∧ symlink w.tree target.render target.resolve path.resolve = .ok w'.tree) ∧
        PlaceSet path.resolve (some (.link target.render target.resolve)) w.tree w'.tree)
      (fun _ w' => Within cfg d w w' ∧ w'.tree = w.tree) False (call M.kernel (.symlink target path) w) := by
  refine (ends_call_within hM hd h (c := .symlink target path) hp).mono ?_ fun _ _ ht => ht.1
  rintro _ w' ⟨⟨hin, hok⟩, hset⟩
  have hok := exec_symlink.mp hok
  have hmade : w'.tree.made path.resolve = some (.link target.render target.resolve) := made_symlink hok
  rw [← hmade]
  exact ⟨⟨hin, hok⟩, hset⟩

variable {name : CStr}

/-- `usbg_rm_dir` -/
lemma usbgRmDir_within (hM : Configfs M cfg) (hd : d.Clean) (h : Shaped cfg w.tree) (hp : d <+: path ++ [name]) :
    Ends (fun _ w' => (Within cfg d w w' ∧ rmdir w.tree (path ++ [name]).resolve = .ok w'.tree) ∧
        PlaceSet (path ++ [name]).resolve none w.tree w'.tree)
      (fun _ w' => (Within cfg d w w' ∧ w'.tree = w.tree) ∧ M.Refuses (.rmdir (path ++ [name])) w.tree) False
      (usbgRmDir M.kernel path name w) := by
  refine Ends.require_bind (fun _ => ?_) fun hfits => ⟨⟨.refl h d, rfl⟩, fun hf => absurd hf hfits⟩
  refine (ends_call_within hM hd h (c := .rmdir (path ++ [name])) hp).mono ?_ fun _ _ ht => ⟨ht.1, fun _ => ht.2⟩
  rintro _ w' ⟨⟨hin, hok⟩, hset⟩
  have hok := exec_rmdir.mp hok
  have hmade : w'.tree.made (path ++ [name]).resolve = none := made_rmdir hok
  rw [← hmade]
  exact ⟨⟨hin, hok⟩, hset⟩

/-- `usbg_rm_file` -/
lemma usbgRmFile_within (hM : Configfs M cfg) (hd : d.Clean) (h : Shaped cfg w.tree) (hp : d <+: path ++ [name]) :
    Ends (fun _ w' => (Within cfg d w w' ∧ unlink w.tree (path ++ [name]).resolve = .ok w'.tree) ∧
        PlaceSet (path ++ [name]).resolve none w.tree w'.tree)
      (fun _ w' => (Within cfg d w w' ∧ w'.tree = w.tree) ∧ M.Refuses (.unlink (path ++ [name])) w.tree) False
      (usbgRmFile M.kernel path name w) := by
  refine Ends.require_bind (fun _ => ?_) fun hfits => ⟨⟨.refl h d, rfl⟩, fun hf => absurd hf hfits⟩
  refine (ends_call_within hM hd h (c := .unlink (path ++ [name])) hp).mono ?_ fun _ _ ht => ⟨ht.1, fun _ => ht.2⟩
  rintro _ w' ⟨⟨hin, hok⟩, hset⟩
  have hok := exec_unlink.mp hok
  have hmade : w'.tree.made (path ++ [name]).resolve = none := made_unlink hok
  rw [← hmade]
  exact ⟨⟨hin, hok⟩, hset⟩

end Calls

end Libusbgx
