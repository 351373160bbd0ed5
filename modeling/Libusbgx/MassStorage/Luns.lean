import Libusbgx.Configfs.Calls
import Libusbgx.Source.Function.Ms

/-!
# The units of a mass storage function

What the functions of `ms.c` that work on one unit do to the tree and to the mask.  Each of them
changes the tree only below the directory of its unit, and none puts a unit into the mask that is
not there.
-/

namespace Libusbgx

open Prog Machine

variable {M : Machine} {d : Path} {T T' : Tree} {f f' : Func} {w : World Fs} {i j : ℕ}

/-! ## The directories of the units -/

/-- The directory of a unit of the function in the directory `d`. -/
def lunAt (d : Path) (i : ℕ) : Path := d ++ [lunDir i]

lemma lunDir_ne_nil (id : ℤ) : lunDir id ≠ [] := by simp [lunDir]

lemma scanIndex_lunDir (hi : i < maxLuns) : scanIndex "lun.".toList (lunDir i) = .index i := by
  have key : ∀ i < maxLuns, scanIndex "lun.".toList (lunDir (i : ℕ)) = .index i := by decide
  exact key i hi

lemma lunAt_injective (hi : i < maxLuns) (hj : j < maxLuns) (h : lunAt d i = lunAt d j) : i = j := by
  have hdir : lunDir i = lunDir j := by simpa [lunAt] using h
  have hscan := scanIndex_lunDir hi
  rw [hdir, scanIndex_lunDir hj] at hscan
  exact (Int.ofNat.inj (IndexScan.index.inj hscan)).symm

/-- No unit is below another one. -/
lemma not_lunAt_prefix (hi : i < maxLuns) (hj : j < maxLuns) (hij : i ≠ j) (q : Path) :
    ¬ lunAt d i <+: lunAt d j ++ q := by
  rintro ⟨r, hr⟩
  rw [lunAt, lunAt, List.append_assoc, List.append_assoc] at hr
  have hdir := (List.cons.inj (List.append_cancel_left hr)).1
  exact hij (lunAt_injective (d := d) hi hj (by rw [lunAt, lunAt, hdir]))

lemma resolve_lunPath (hd : f.dir = d) (hclean : d.Clean) (id : ℤ) :
    (lunPath f id).resolve = d ++ [lunDir id] := by
  have hpath : lunPath f id = d ++ [lunDir id, []] := by
    rw [lunPath, ← hd, Func.dir, List.append_assoc]
    rfl
  rw [hpath, hclean.resolve_append]
  simp [lunDir_ne_nil]

lemma resolve_lunFile (hd : f.dir = d) (hclean : d.Clean) (id : ℤ) {name : CStr} (hname : name ≠ []) :
    (lunPath f id ++ [[], name]).resolve = d ++ [lunDir id] ++ [name] := by
  have hpath : lunPath f id ++ [[], name] = d ++ [lunDir id, [], [], name] := by
    rw [lunPath, ← hd, Func.dir, List.append_assoc, List.append_assoc]
    rfl
  rw [hpath, hclean.resolve_append]
  simp [lunDir_ne_nil, hname]

/-! ## The mask and the tree -/

/-- The function lies in `d`, where nothing but the units looks like a unit; and the units in the
mask are there. -/
structure LunsOk (d : Path) (T : Tree) (f : Func) : Prop where
  dir : f.dir = d
  clean : d.Clean
  names : ∀ name n, T.get (d ++ [name]) = some n →
    scanIndex "lun.".toList name = .mismatch ∨ ∃ i < maxLuns, name = lunDir i ∧ n.isDir = true
  sound : ∀ i ∈ f.luns, i < maxLuns ∧ T.IsDir (lunAt d i)

/-- A mask that has been read has all the units. -/
def LunsComplete (d : Path) (T : Tree) (f : Func) : Prop :=
  f.lunsInitiated = true → ∀ i < maxLuns, T.IsDir (lunAt d i) → i ∈ f.luns

/-- What is at the place of a unit is a directory. -/
lemma LunsOk.isDir (h : LunsOk d T f) (hi : i < maxLuns) : T.IsDir (lunAt d i) ↔ T.get (lunAt d i) ≠ none := by
  rw [FileTree.IsDir, lunAt]
  cases hget : T.get (d ++ [lunDir i]) with
  | none => simp
  | some n =>
    rcases h.names _ n hget with hscan | ⟨j, -, -, hdir⟩
    · rw [scanIndex_lunDir hi] at hscan
      cases hscan
    · simp [hdir]

/-- Reading the mask again may add to it what is in the tree. -/
structure MaskRead (d : Path) (T : Tree) (f f' : Func) : Prop where
  ok : LunsOk d T f'
  grows : ∀ i ∈ f.luns, i ∈ f'.luns
  complete : LunsComplete d T f → LunsComplete d T f'
  known : f.lunsInitiated = true → f' = f
  fresh : f' = f ∨ f.lunsInitiated = false ∧ (f.path ++ [f.name, []]).Fits ∧ T.IsDir d

lemma MaskRead.refl (h : LunsOk d T f) : MaskRead d T f f :=
  ⟨h, fun _ h => h, fun h => h, fun _ => rfl, .inl rfl⟩

/-- The loop of `init_luns` puts the units among the entries into the mask. -/
lemma markLuns_ends (h : LunsOk d T f) (ds : List Dirent)
    (hds : ∀ e ∈ ds, ∃ n, T.get (d ++ [e.name]) = some n) {s : World Fs × Func} (hs : s.2 = f) :
    Ends (fun _ t => t.1 = s.1 ∧ ∃ luns, t.2 = { f with luns } ∧
        ∀ i, i ∈ luns ↔ i ∈ f.luns ∨ i < maxLuns ∧ ∃ e ∈ ds, e.name = lunDir i)
      (fun _ _ => False) False
      (forEach (fun e : Dirent =>
        match scanIndex "lun.".toList e.name with
        | .mismatch => pure ()
        | .eof => undef
        | .index id => if 0 ≤ id ∧ id < maxLuns then update (setLun id.toNat) else undef) ds s) := by
  -- exactly the units of the names that are done are marked
  refine Ends.forEachDone (fun (done : List Dirent) (t : World Fs × Func) => t.1 = s.1 ∧ ∃ luns, t.2 = { f with luns } ∧
    ∀ i, i ∈ luns ↔ i ∈ f.luns ∨ i < maxLuns ∧ ∃ e ∈ done, e.name = lunDir i) ?_
    ⟨rfl, f.luns, hs, fun i => by simp⟩
  rintro done e t hdone ⟨hw, luns, hfunc, hluns⟩
  obtain ⟨n, hn⟩ := hds e (hdone.subset (by simp))
  -- every name in the directory is that of a unit or has nothing to do with one
  rcases h.names _ n hn with hscan | ⟨j, hj, hname, -⟩
  · rw [hscan]
    refine ⟨hw, luns, hfunc, fun i => (hluns i).trans (or_congr_right (and_congr_right fun hi => ?_))⟩
    have hne : e.name ≠ lunDir i := by
      intro hname
      rw [hname, scanIndex_lunDir hi] at hscan
      cases hscan
    simp [hne]
  · rw [hname, scanIndex_lunDir hj]
    dsimp only
    rw [if_pos (by omega)]
    have hset : setLun (j : ℤ).toNat t.2 = { f with luns := j :: luns } := by
      rw [hfunc]
      rfl
    refine ⟨hw, j :: luns, hset, fun i => ?_⟩
    rw [List.mem_cons, hluns i]
    have hij : i < maxLuns → (e.name = lunDir i ↔ i = j) := by
      intro hi
      rw [hname]
      constructor
      · intro hdir
        exact lunAt_injective (d := d) hi hj (by rw [lunAt, lunAt, hdir])
      · rintro rfl
        rfl
    constructor
    · rintro (rfl | hmem | ⟨hi, e', he', hname'⟩)
      · exact .inr ⟨hj, e, by simp, hname⟩
      · exact .inl hmem
      · exact .inr ⟨hi, e', by simp [he'], hname'⟩
    · rintro (hmem | ⟨hi, e', he', hname'⟩)
      · exact .inr (.inl hmem)
      · rcases List.mem_append.mp he' with he' | he'
        · exact .inr (.inr ⟨hi, e', he', hname'⟩)
        · obtain rfl := List.mem_singleton.mp he'
          exact .inl ((hij hi).mp hname')

lemma resolve_funcDir (hd : f.dir = d) (hclean : d.Clean) : (f.path ++ [f.name, []]).resolve = d := by
  have hpath : f.path ++ [f.name, []] = d ++ [[]] := by
    rw [← hd, Func.dir, List.append_assoc]
    rfl
  rw [hpath, hclean.resolve_append]
  simp

/-- Where the path of a file of the function fits, that of its directory does. -/
lemma fits_funcDir {file : CStr} (h : (f.path ++ [f.name, file]).Fits) : (f.path ++ [f.name, []]).Fits := by
  refine lt_of_le_of_lt ?_ h
  simp only [Path.len, List.map_append, List.sum_append, List.length_append]
  simp

/-- The mask after `init_luns`: what was in it, and all units.  It fails only when the directory is
not read. -/
lemma initLuns_ends (h : LunsOk d w.tree f) :
    Ends (fun _ s => s.1.tree = w.tree ∧ ((f.path ++ [f.name, []]).Fits ∧ w.tree.IsDir d) ∧
        ∃ luns, s.2 = { f with luns } ∧
          ∀ i, i ∈ luns ↔ i ∈ f.luns ∨ i < maxLuns ∧ w.tree.IsDir (lunAt d i))
      (fun _ s => s.1.tree = w.tree ∧ s.2 = f ∧ ((f.path ++ [f.name, []]).Fits →
        M.Grants (.scandir (f.path ++ [f.name, []])) → ¬ w.tree.IsDir d)) False
      (initLuns M.kernel (w, f)) := by
  have hresolve := resolve_funcDir h.dir h.clean
  rw [initLuns, self_bind_apply]
  refine Ends.require_bind (fun hfits => ?_) fun hfits => ⟨rfl, rfl, fun h => absurd h hfits⟩
  refine Ends.bind (R := fun (ds : List Dirent) s => (s.1.tree = w.tree ∧ s.2 = f) ∧ w.tree.IsDir d ∧
    ∀ e : Dirent, e ∈ ds ↔ ∃ n, w.tree.get (d ++ [e.name]) = some n ∧ e.isLink = n.isLink) ?_ ?_
  · refine ends_io (ends_entries (fun ds w' hdir hds ht _ => ⟨⟨ht, rfl⟩, ?_, ?_⟩) fun e w' hwhy ht _ =>
      ⟨ht, rfl, fun _ hg => ?_⟩)
    · rwa [hresolve] at hdir
    · rwa [hresolve] at hds
    · have hdir := hwhy hg
      rwa [hresolve] at hdir
  · rintro ds s ⟨⟨ht, hs⟩, hdir, hds⟩
    have hmem : ∀ e ∈ ds.filter fileSelect, ∃ n, w.tree.get (d ++ [e.name]) = some n := by
      intro e he
      obtain ⟨n, hn, -⟩ := (hds e).mp (List.mem_of_mem_filter he)
      exact ⟨n, hn⟩
    refine (markLuns_ends h _ hmem hs).mono ?_ fun _ _ h => h.elim
    rintro - t ⟨hw, luns, hfunc, hluns⟩
    refine ⟨by rw [hw, ht], ⟨hfits, hdir⟩, luns, hfunc,
      fun i => (hluns i).trans (or_congr_right (and_congr_right fun hi => ?_))⟩
    rw [h.isDir hi]
    constructor
    · rintro ⟨e, he, hname⟩
      obtain ⟨n, hn⟩ := hmem e he
      rw [lunAt, ← hname, hn]
      simp
    · intro hne
      obtain ⟨n, hn⟩ := Option.ne_none_iff_exists'.mp hne
      refine ⟨⟨lunDir i, n.isLink⟩, List.mem_filter.mpr ⟨(hds _).mpr ⟨n, hn, rfl⟩, ?_⟩, rfl⟩
      simp [fileSelect, lunDir]

/-- The mask after `get_lun_mask`. -/
lemma getLunMask_ends (h : LunsOk d w.tree f) :
    Ends (fun luns s => s.1.tree = w.tree ∧ MaskRead d w.tree f s.2 ∧ luns = s.2.luns ∧
        ((f.path ++ [f.name, []]).Fits → M.Grants (.scandir (f.path ++ [f.name, []])) →
          w.tree.IsDir d → s.2.lunsInitiated = true))
      (fun _ _ => False) False (getLunMask M.kernel (w, f)) := by
  rw [getLunMask, self_bind_apply]
  refine Ends.bind (R := fun _ s => s.1.tree = w.tree ∧ MaskRead d w.tree f s.2 ∧
    ((f.path ++ [f.name, []]).Fits → M.Grants (.scandir (f.path ++ [f.name, []])) →
      w.tree.IsDir d → s.2.lunsInitiated = true)) ?_ fun _ s hs => ⟨hs.1, hs.2.1, rfl, hs.2.2⟩
  refine Ends.when (fun hnew => ?_) fun hknown => ⟨rfl, MaskRead.refl h, fun _ _ _ => by simpa using hknown⟩
  have hold : ¬ f.lunsInitiated = true := hnew
  refine Ends.attempt_bind (initLuns_ends h) ?_ ?_
  · rintro - s ⟨ht, hread, luns, hfunc, hluns⟩
    have hdir : s.2.dir = f.dir := by
      rw [hfunc]
      rfl
    have hmask : ∀ i, i ∈ s.2.luns ↔ i ∈ f.luns ∨ i < maxLuns ∧ w.tree.IsDir (lunAt d i) := by
      rw [hfunc]
      exact hluns
    refine ⟨ht, ⟨⟨hdir.trans h.dir, h.clean, h.names, fun i hi => ?_⟩, fun i hi => (hmask i).mpr (.inl hi),
      fun _ _ i hi hdir => (hmask i).mpr (.inr ⟨hi, hdir⟩), fun hk => absurd hk hold,
      .inr ⟨by simpa using hold, hread⟩⟩, fun _ _ _ => rfl⟩
    rcases (hmask i).mp hi with hi | hi
    · exact h.sound i hi
    · exact hi
  · rintro e s ⟨ht, hs⟩
    exact ⟨ht, by rw [hs.1]; exact MaskRead.refl h, fun hfits hg hdir => absurd hdir (hs.2 hfits hg)⟩

/-! ## Attributes -/

/-- What is written for the value of an attribute of a unit. -/
def AttrVal.text : AttrVal → Option CStr
  | .bool b => some (printDec (if b then 1 else 0) ++ ['\n'])
  | .string s => s
  | _ => none

/-- The attribute files of the unit hold the values. -/
def LunHolds (d : Path) (T : Tree) (i : ℕ) (vals : List AttrVal) : Prop :=
  ∀ av ∈ msLunAttr.zip vals, ∃ t, av.2.text = some t ∧ T.get (lunAt d i ++ [av.1.name]) = some (.file t)

/-- Only contents of files below `p` have changed. -/
def Rewritten (p : Path) (T T' : Tree) : Prop :=
  ∀ q, T'.get q = T.get q ∨
    (p <+: q ∧ q ≠ p) ∧ ∃ c c', T.get q = some (.file c) ∧ T'.get q = some (.file c')

namespace Rewritten

variable {p : Path} {T'' : Tree}

lemma refl (p : Path) (T : Tree) : Rewritten p T T := fun _ => .inl rfl

lemma trans (h : Rewritten p T T') (h' : Rewritten p T' T'') : Rewritten p T T'' := by
  intro q
  rcases h q with heq | ⟨hq, c, c', hc, hc'⟩
  · rcases h' q with heq' | ⟨hq, c, c', hc, hc'⟩
    · exact .inl (heq'.trans heq)
    · exact .inr ⟨hq, c, c', heq ▸ hc, hc'⟩
  · rcases h' q with heq' | ⟨-, -, c'', -, hc''⟩
    · exact .inr ⟨hq, c, c', hc, heq' ▸ hc'⟩
    · exact .inr ⟨hq, c, c'', hc, hc''⟩

lemma replace {name : CStr} {data content : CStr} (h : T.get (p ++ [name]) = some (.file content)) :
    Rewritten p T (T.replace (p ++ [name]) (.file data)) := by
  intro q
  rw [FileTree.get_replace]
  by_cases hq : q = p ++ [name]
  · subst hq
    rw [if_pos rfl, h]
    exact .inr ⟨⟨List.prefix_append .., by simp⟩, content, data, rfl, rfl⟩
  · rw [if_neg hq]
    exact .inl rfl

/-- What is not a file is as it was. -/
lemma get_eq_some (h : Rewritten p T T') {q : Path} {n : Node CStr CStr} (hn : n.isFile = false) :
    T'.get q = some n ↔ T.get q = some n := by
  rcases h q with heq | ⟨-, c, c', hc, hc'⟩
  · rw [heq]
  · rw [hc, hc']
    constructor
    · intro heq
      obtain rfl := Option.some.inj heq
      cases hn
    · intro heq
      obtain rfl := Option.some.inj heq
      cases hn

lemma isDir (h : Rewritten p T T') (q : Path) : T'.IsDir q ↔ T.IsDir q := by
  rw [FileTree.isDir_iff, FileTree.isDir_iff]
  exact exists_congr fun b => h.get_eq_some rfl

lemma outside (h : Rewritten p T T') : Outside p T T' := by
  intro q hq
  rcases h q with heq | ⟨hpq, -⟩
  · exact heq
  · exact absurd hpq.1 hq

lemma lunsOk (h : Rewritten p T T') (hok : LunsOk d T f) : LunsOk d T' f where
  dir := hok.dir
  clean := hok.clean
  sound i hi := ⟨(hok.sound i hi).1, (h.isDir _).mpr (hok.sound i hi).2⟩
  names name n hn := by
    rcases h (d ++ [name]) with heq | ⟨-, c, c', hc, hc'⟩
    · exact hok.names name n (heq ▸ hn)
    · rcases hok.names name _ hc with hscan | ⟨_, _, _, hdir⟩
      · exact .inl hscan
      · cases hdir

end Rewritten

/-- Writing one attribute of a unit. -/
lemma usbgFMsSetLunAttrVal_ends (h : LunsOk d w.tree f) {a : Attr} (ha : a ∈ msLunAttr) (val : AttrVal) :
    Ends (fun _ s => s.2 = f ∧ ∃ t content, val.text = some t ∧
        w.tree.get (lunAt d i ++ [a.name]) = some (.file content) ∧
        s.1.tree = w.tree.replace (lunAt d i ++ [a.name]) (.file t))
      (fun _ s => s.2 = f ∧ s.1.tree = w.tree) True (usbgFMsSetLunAttrVal M.kernel i a val (w, f)) := by
  have hname : a.name ≠ [] := by
    have key : ∀ a ∈ msLunAttr, a.name ≠ [] := by decide
    exact key a ha
  have hresolve := resolve_lunFile h.dir h.clean i hname
  -- both kinds of attributes end in one write
  have hwrite : ∀ t, val.text = some t → Ends (fun _ s => s.2 = f ∧ ∃ t content, val.text = some t ∧
        w.tree.get (lunAt d i ++ [a.name]) = some (.file content) ∧
        s.1.tree = w.tree.replace (lunAt d i ++ [a.name]) (.file t))
      (fun _ s => s.2 = f ∧ s.1.tree = w.tree) True
      (io (usbgWriteBuf M.kernel (lunPath f i) [] a.name t) (w, f)) := by
    intro t ht
    refine ends_io (ends_usbgWriteBuf (fun w' hfile htree _ => ?_) fun e w' htree _ => ⟨rfl, htree⟩)
    rw [hresolve] at hfile htree
    obtain ⟨content, hcontent⟩ := hfile
    exact ⟨rfl, t, content, ht, hcontent, htree⟩
  rw [usbgFMsSetLunAttrVal, self_bind_apply]
  refine Ends.require_bind (fun _ => ?_) fun _ => ⟨rfl, rfl⟩
  have hkind : a.kind = .bool ∨ a.kind = .string := by
    have key : ∀ a ∈ msLunAttr, a.kind = .bool ∨ a.kind = .string := by decide
    exact key a ha
  rcases hkind with hkind | hkind <;> rw [hkind] <;> rcases val with _ | b | (_ | s) | _ | _ <;>
    first
    | trivial
    | exact hwrite _ rfl

/-- Writing the attributes of a unit. -/
lemma usbgFMsSetLunAttrs_ends (h : LunsOk d w.tree f) (l : MsLunAttrs) :
    Ends (fun _ s => s.2 = f ∧ Rewritten (lunAt d i) w.tree s.1.tree ∧ LunHolds d s.1.tree i l.vals)
      (fun _ s => s.2 = f ∧ Rewritten (lunAt d i) w.tree s.1.tree) True
      (usbgFMsSetLunAttrs M.kernel i l (w, f)) := by
  rw [usbgFMsSetLunAttrs]
  by_cases hlen : l.vals.length = msLunAttr.length
  swap
  · rw [if_neg hlen]
    trivial
  rw [if_pos hlen]
  have hnodup : (msLunAttr.map Attr.name).Nodup := by decide
  refine (Ends.forEachDone (fun done s => s.2 = f ∧ Rewritten (lunAt d i) w.tree s.1.tree ∧
    ∀ av ∈ done, ∃ t, av.2.text = some t ∧ s.1.tree.get (lunAt d i ++ [av.1.name]) = some (.file t)) ?_
    ⟨rfl, Rewritten.refl _ _, by simp⟩).mono (fun _ _ h => h) fun _ _ h => h
  rintro done av ⟨w', f'⟩ hdone ⟨rfl, hrew, hheld⟩
  have hav : av ∈ msLunAttr.zip l.vals := hdone.subset (by simp)
  refine (usbgFMsSetLunAttrVal_ends (hrew.lunsOk h) (List.of_mem_zip hav).1 av.2).mono ?_
    fun _ s hs => ⟨hs.1, hs.2 ▸ hrew⟩
  rintro - s ⟨hs, t, content, ht, hfile, htree⟩
  refine ⟨hs, htree ▸ hrew.trans (Rewritten.replace hfile), fun av' hav' => ?_⟩
  rw [htree, FileTree.get_replace]
  rcases List.mem_append.mp hav' with hav' | hav'
  · -- the names in the table are different
    have hne : av'.1.name ≠ av.1.name := by
      have hzip : ((msLunAttr.zip l.vals).map Prod.fst).map Attr.name <+: msLunAttr.map Attr.name := by
        rw [List.map_fst_zip (by rw [hlen])]
      have hnodup' := (((hdone.map Prod.fst).map Attr.name).trans hzip).sublist.nodup hnodup
      rw [List.map_append, List.map_append, List.nodup_append] at hnodup'
      exact hnodup'.2.2 _ (List.mem_map_of_mem (List.mem_map_of_mem hav')) _ (by simp)
    rw [if_neg (by simpa using hne)]
    exact hheld av' hav'
  · obtain rfl := List.mem_singleton.mp hav'
    rw [if_pos rfl, hfile]
    exact ⟨t, ht, rfl⟩

/-! ## Steps on one unit -/

/-- A step on one unit: the tree changes below the directory of the unit only, where nothing but this
directory is made, and other units stay in the mask. -/
structure UnitStep (d : Path) (i : ℕ) (T T' : Tree) (f f' : Func) : Prop where
  ok : LunsOk d T' f'
  outside : Outside (lunAt d i) T T'
  made : ∀ q n, T'.get q = some n → n.made = true → q ≠ lunAt d i → T.get q = some n
  keeps : ∀ j ∈ f.luns, j ≠ i → j ∈ f'.luns
  known : f.lunsInitiated = true → f'.lunsInitiated = true

namespace UnitStep

variable {T'' : Tree} {f'' : Func}

lemma trans (h : UnitStep d i T T' f f') (h' : UnitStep d i T' T'' f' f'') : UnitStep d i T T'' f f'' where
  ok := h'.ok
  outside := h.outside.trans h'.outside
  made q n hn hmade hq := h.made q n (h'.made q n hn hmade hq) hmade hq
  keeps j hj hij := h'.keeps j (h.keeps j hj hij) hij
  known hk := h'.known (h.known hk)

/-- The other units are as they were. -/
lemma isDir_iff (h : UnitStep d i T T' f f') (hi : i < maxLuns) (hj : j < maxLuns) (hij : j ≠ i) :
    T'.IsDir (lunAt d j) ↔ T.IsDir (lunAt d j) := by
  have := not_lunAt_prefix (d := d) hi hj hij.symm []
  rw [List.append_nil] at this
  rw [FileTree.IsDir, FileTree.IsDir, h.outside _ this]

end UnitStep

lemma MaskRead.unitStep (h : MaskRead d T f f') : UnitStep d i T T f f' where
  ok := h.ok
  outside _ _ := rfl
  made _ _ hn _ _ := hn
  keeps j hj _ := h.grows j hj
  known hk := h.known hk ▸ hk

lemma Rewritten.unitStep (h : Rewritten (lunAt d i) T T') (hok : LunsOk d T f) :
    UnitStep d i T T' f f where
  ok := h.lunsOk hok
  outside := h.outside
  made q n hn hmade _ := (h.get_eq_some (by cases n <;> first | rfl | cases hmade)).mp hn
  keeps _ hj _ := hj
  known hk := hk

lemma isDir_addAll {q : Path} (l : List (Path × Node CStr CStr)) (h : T.IsDir q) : (T.addAll l).IsDir q := by
  obtain ⟨b, hb⟩ := FileTree.isDir_iff.mp h
  refine FileTree.isDir_iff.mpr ⟨b, ?_⟩
  rw [FileTree.get_addAll, hb]
  rfl

/-- A name in the directory of the function is that of the unit, or what has it is not below the
unit. -/
lemma name_cases (d : Path) (i : ℕ) (name : CStr) : name = lunDir i ∨ ¬ lunAt d i <+: d ++ [name] := by
  by_cases hname : name = lunDir i
  · exact .inl hname
  · refine .inr fun hpre => hname ?_
    have heq := hpre.eq_of_length (by simp [lunAt])
    simpa [lunAt] using heq.symm

lemma unitStep_newDir (M : Machine) (h : LunsOk d T f) (hi : i < maxLuns) (hnone : T.get (lunAt d i) = none) :
    UnitStep d i T (T.addAll (M.newDir (lunAt d i))) f f where
  ok :=
    { dir := h.dir
      clean := h.clean
      names := by
        intro name n hn
        rcases name_cases d i name with rfl | hout
        · have hself := get_newDir_self (M := M) hnone
          rw [lunAt, ← lunAt, hself] at hn
          obtain rfl := Option.some.inj hn
          exact .inr ⟨i, hi, rfl, rfl⟩
        · rw [get_newDir_outside hout] at hn
          exact h.names name n hn
      sound := fun j hj => ⟨(h.sound j hj).1, isDir_addAll _ (h.sound j hj).2⟩ }
  outside _ hq := get_newDir_outside hq
  made _ _ hn hmade hq := made_newDir hn hmade hq
  keeps _ hj _ := hj
  known hk := hk

/-- Taking a unit away, and out of the mask. -/
lemma unitStep_prune (h : LunsOk d T f) (hi : i < maxLuns) (hdir : f'.dir = f.dir)
    (hinit : f'.lunsInitiated = f.lunsInitiated) (hluns : ∀ j, j ∈ f'.luns ↔ j ∈ f.luns ∧ j ≠ i) :
    UnitStep d i T (T.prune (lunAt d i)) f f' where
  ok :=
    { dir := hdir.trans h.dir
      clean := h.clean
      names := by
        intro name n hn
        rw [FileTree.get_prune] at hn
        split at hn
        · cases hn
        · exact h.names name n hn
      sound := by
        intro j hj
        obtain ⟨hj, hji⟩ := (hluns j).mp hj
        have hout := not_lunAt_prefix (d := d) hi (h.sound j hj).1 hji.symm []
        rw [List.append_nil] at hout
        refine ⟨(h.sound j hj).1, ?_⟩
        rw [FileTree.IsDir, FileTree.get_prune, if_neg hout]
        exact (h.sound j hj).2 }
  outside q hq := by rw [FileTree.get_prune, if_neg hq]
  made q n hn _ _ := by
    rw [FileTree.get_prune] at hn
    split at hn
    · cases hn
    · exact hn
  keeps j hj hji := (hluns j).mpr ⟨hj, hji⟩
  known hk := hinit.trans hk

/-- Putting a unit that is there into the mask. -/
lemma unitStep_setLun (h : LunsOk d T f) (hi : i < maxLuns) (hdir : T.IsDir (lunAt d i)) :
    UnitStep d i T T f (setLun i f) where
  ok :=
    { dir := h.dir
      clean := h.clean
      names := h.names
      sound := by
        intro j hj
        rcases List.mem_cons.mp hj with rfl | hj
        · exact ⟨hi, hdir⟩
        · exact h.sound j hj }
  outside _ _ := rfl
  made _ _ hn _ _ := hn
  keeps _ hj _ := List.mem_cons_of_mem _ hj
  known hk := hk

/-! ## Creating and removing a unit -/

/-- The kernel lets a unit be removed that is not there yet once it will have been made. -/
def Removable (M : Machine) (d : Path) (T : Tree) (f : Func) (i : ℕ) : Prop :=
  M.Grants (.rmdir (lunPath f i)) ∧
    (T.get (lunAt d i) = none → ¬ T.MadeBelow (lunAt d i) ∧ ¬ T.Pinned (lunAt d i))

/-- What the attributes of a new unit are: those it was given, or what the kernel puts there. -/
def NewContent (M : Machine) (d : Path) (i : ℕ) (T T' : Tree) : Option MsLunAttrs → Prop
  | some l => LunHolds d T' i l.vals
  | none => T' = T.addAll (M.newDir (lunAt d i))

/-- A unit has been created. -/
structure LunCreated (M : Machine) (d : Path) (i : ℕ) (l : Option MsLunAttrs) (T T' : Tree)
    (f f' : Func) : Prop where
  step : UnitStep d i T T' f f'
  absent : T.get (lunAt d i) = none
  present : T'.IsDir (lunAt d i)
  masked : i ∈ f'.luns
  complete : LunsComplete d T f → LunsComplete d T' f'
  content : NewContent M d i T T' l

lemma lunPath_congr (h : f'.dir = f.dir) (id : ℤ) : lunPath f' id = lunPath f id := by
  obtain ⟨hpath, hname⟩ := List.append_inj' h rfl
  rw [lunPath, lunPath, hpath, (List.cons.inj hname).1]

/-- When the unit is not there, nothing is in its place that would keep it from being removed. -/
def UnitFree (d : Path) (T : Tree) (i : ℕ) : Prop :=
  T.get (lunAt d i) = none → ¬ T.MadeBelow (lunAt d i) ∧ ¬ T.Pinned (lunAt d i)

/-- A unit that was created a moment ago can be removed. -/
lemma UnitFree.rmdir_ok (h : UnitFree d T i) {T₁ : Tree} (hok : LunsOk d T₁ f)
    (hnone : T.get (lunAt d i) = none) (hmade : ∀ q n, T₁.get q = some n → n.made = true →
      q ≠ lunAt d i → T.get q = some n) (hself : T₁.get (lunAt d i) = some (.dir true)) :
    ¬ ∃ errno, M.exec (.rmdir (lunPath f i)) T₁ = .error errno := by
  rintro ⟨errno, herr⟩
  obtain ⟨hbelow, hpinned⟩ := h hnone
  have hok' : rmdir T₁ (lunPath f i).resolve = .ok (T₁.prune (lunAt d i)) := by
    rw [resolve_lunPath hok.dir hok.clean]
    refine rmdir_eq_ok.mpr ⟨hself, fun hb => hbelow ?_, fun hp => hpinned ?_, rfl⟩
    · obtain ⟨q, n, hn, hpre, hq, hm⟩ := FileTree.madeBelow_iff.mp hb
      exact FileTree.madeBelow_iff.mpr ⟨q, n, hmade q n hn hm hq, hpre, hq, hm⟩
    · obtain ⟨q, text, hn⟩ := FileTree.pinned_iff.mp hp
      have hq : q ≠ lunAt d i := by
        rintro rfl
        rw [lunAt, ← lunAt, hself] at hn
        cases hn
      exact FileTree.pinned_iff.mpr ⟨q, text, hmade q _ hn rfl hq⟩
  rw [exec, hok'] at herr
  cases herr

/-- Since `w` the directory `p` was made, and the kernel has refused to remove it again. -/
def UndoRefused (M : Machine) (p : Path) (w w' : World Fs) : Prop :=
  ∃ later between earlier, w'.sys.log = later ++ .rmdir p :: (between ++ .mkdir p :: (earlier ++ w.sys.log)) ∧
    M.fault (between ++ .mkdir p :: (earlier ++ w.sys.log)).length (.rmdir p) ≠ none

/-- A unit has not been created: it is left behind only when the kernel refuses to remove it again. -/
structure LunFailed (M : Machine) (d : Path) (i : ℕ) (w w' : World Fs) (f f' : Func) : Prop where
  step : UnitStep d i w.tree w'.tree f f'
  absent : w'.tree.get (lunAt d i) = none → w.tree.get (lunAt d i) = none
  complete : (w'.tree.IsDir (lunAt d i) → w.tree.IsDir (lunAt d i)) → LunsComplete d w.tree f →
    LunsComplete d w'.tree f'
  noNew : UnitFree d w.tree i → w'.tree.IsDir (lunAt d i) → w.tree.IsDir (lunAt d i) ∨
    UndoRefused M (lunPath f i) w w'

/-- Where the kernel refuses nothing, a unit is not left behind. -/
lemma Removable.not_refused {w' : World Fs} (h : Removable M d T f i) : ¬ UndoRefused M (lunPath f i) w w' := by
  rintro ⟨later, between, earlier, -, hfault⟩
  exact hfault (h.1 _)

lemma LunFailed.noNew_of_removable {w' : World Fs} (h : LunFailed M d i w w' f f')
    (hr : Removable M d w.tree f i) (hdir : w'.tree.IsDir (lunAt d i)) : w.tree.IsDir (lunAt d i) :=
  (h.noNew hr.2 hdir).resolve_right hr.not_refused

/-- Reading the mask again is no failure to undo anything. -/
lemma MaskRead.lunFailed {w' : World Fs} (h : MaskRead d w.tree f f') (ht : w'.tree = w.tree) :
    LunFailed M d i w w' f f' where
  step := by
    rw [ht]
    exact h.unitStep
  absent hnone := ht ▸ hnone
  complete _ hc := by
    rw [ht]
    exact h.complete hc
  noNew _ hdir := .inl (ht ▸ hdir)

/-- The mask has the other units when it had them all. -/
lemma UnitStep.complete_of_ne (h : UnitStep d i T T' f f') (hi : i < maxLuns)
    (hmask : f'.lunsInitiated = true → ∀ j < maxLuns, j ≠ i → T.IsDir (lunAt d j) → j ∈ f'.luns)
    (hself : f'.lunsInitiated = true → T'.IsDir (lunAt d i) → i ∈ f'.luns) : LunsComplete d T' f' := by
  intro hknown j hj hdir
  by_cases hji : j = i
  · subst hji
    exact hself hknown hdir
  · exact hmask hknown j hj hji ((h.isDir_iff hi hj hji).mp hdir)

/-- `usbg_f_ms_create_lun` -/
lemma usbgFMsCreateLun_ends (h : LunsOk d w.tree f) (hi : i < maxLuns) (l : Option MsLunAttrs) :
    Ends (fun _ s => LunCreated M d i l w.tree s.1.tree f s.2)
      (fun _ s => LunFailed M d i w s.1 f s.2) True
      (usbgFMsCreateLun M.kernel i l (w, f)) := by
  have hlog (v : World Fs) := (M.stable_log v.sys.log).toStableIn
  have hnil (g : Func) : [] <+: g.core.dir := List.nil_prefix
  rw [usbgFMsCreateLun]
  refine Ends.require_bind (fun _ => ?_) fun hlt => absurd (by exact_mod_cast hi) hlt
  have hread := (getLunMask_ends (M := M) h).and_keeps ((hlog w).keeps_getLunMask (hnil f)) ⟨List.suffix_rfl, rfl⟩
  refine Ends.bind (hread.mono_undef (fun _ _ h => h) (fun _ _ h => h.1.elim) fun h => h.elim) ?_
  rintro luns ⟨w₁, f₁⟩ ⟨⟨ht₁, hmask, rfl, -⟩, hlog₁, -⟩
  dsimp only at ht₁ hmask hlog₁
  have hstep₁ : UnitStep d i w.tree w.tree f f₁ := hmask.unitStep
  have hdir₁ : f₁.dir = f.dir := hmask.ok.dir.trans h.dir.symm
  have hpath : lunPath f₁ i = lunPath f i := lunPath_congr hdir₁ i
  dsimp only
  rw [if_neg (by omega), Int.toNat_natCast]
  refine Ends.require_bind (fun hnew => ?_) fun _ => hmask.lunFailed ht₁
  rw [self_bind_apply]
  dsimp only
  rw [hpath]
  refine Ends.require_bind (fun _ => ?_) fun _ => hmask.lunFailed ht₁
  refine Ends.bind (R := fun _ s => s.2 = f₁ ∧ w.tree.get (lunAt d i) = none ∧
    s.1.tree = w.tree.addAll (M.newDir (lunAt d i)) ∧ s.1.sys.log = .mkdir (lunPath f i) :: w₁.sys.log)
      (ends_io (ends_numberedCall (c := .mkdir (lunPath f i)) (fun _ w' _ hexec hlog₂ => ?_)
      fun e w' _ ht _ => hmask.lunFailed (ht.trans ht₁))) ?_
  · obtain ⟨hnone, -, -, ht⟩ := mkdir_eq_ok.mp (exec_mkdir.mp hexec)
    rw [resolve_lunPath h.dir h.clean, ht₁] at hnone ht
    exact ⟨rfl, hnone, ht, hlog₂⟩
  rintro - ⟨w₂, f₂⟩ ⟨hfunc, hnone, ht₂, hlog₂⟩
  obtain rfl : f₁ = f₂ := hfunc.symm
  dsimp only at ht₂ hlog₂
  have hstep₂ : UnitStep d i w.tree w₂.tree f f₁ := by
    rw [ht₂]
    exact hstep₁.trans (unitStep_newDir M hmask.ok hi hnone)
  have hself : w₂.tree.get (lunAt d i) = some (.dir true) := by
    rw [ht₂]
    exact get_newDir_self hnone
  -- the mask still has all the units that were there
  have hothers : LunsComplete d w.tree f → f₁.lunsInitiated = true → ∀ j < maxLuns, w.tree.IsDir (lunAt d j) →
      j ∈ f₁.luns := fun hcomplete => hmask.complete hcomplete
  refine Ends.bind (R := fun _ s => s.2 = f₁ ∧ Rewritten (lunAt d i) w₂.tree s.1.tree ∧
    NewContent M d i w.tree s.1.tree l) ?_ ?_
  · cases l with
    | none => exact ⟨rfl, Rewritten.refl _ _, ht₂⟩
    | some l =>
      refine Ends.onFail (F := fun _ s => s.2 = f₁ ∧ Rewritten (lunAt d i) w₂.tree s.1.tree ∧
          w₂.sys.log <:+ s.1.sys.log)
        (((usbgFMsSetLunAttrs_ends hstep₂.ok l).and_keeps ((hlog w₂).keeps_usbgFMsSetLunAttrs (hnil f₁))
          ⟨List.suffix_rfl, rfl⟩).mono (fun _ _ h => h.1) fun _ _ h => ⟨h.1.1, h.1.2, h.2.1⟩) ?_
      rintro e ⟨w₃, f₃⟩ ⟨hfunc, hrew, hlog₃⟩
      obtain rfl : f₁ = f₃ := hfunc.symm
      have hstep₃ := hstep₂.trans (hrew.unitStep hstep₂.ok)
      refine ends_io (ends_numberedTryCall (c := .rmdir (lunPath f i)) (fun _ w' hexec _ => ?_)
        fun w' hwhy ht hlog₄ => ?_)
      · -- the unit is gone again
        obtain ⟨-, -, -, ht⟩ := rmdir_eq_ok.mp (exec_rmdir.mp hexec)
        rw [resolve_lunPath h.dir h.clean] at ht
        have hgone : ¬ w'.tree.IsDir (lunAt d i) := by
          rw [ht, FileTree.IsDir, lunAt, FileTree.get_prune, if_pos List.prefix_rfl]
          simp
        have hstep₄ : UnitStep d i w.tree w'.tree f f₁ := by
          rw [ht]
          refine hstep₃.trans (unitStep_prune hstep₃.ok hi rfl rfl fun j => ⟨fun hj => ⟨hj, ?_⟩, And.left⟩)
          rintro rfl
          exact hnew hj
        exact ⟨hstep₄, fun _ => hnone, fun _ hcomplete => hstep₄.complete_of_ne hi
          (fun hk j hj _ hd => hothers hcomplete hk j hj hd) fun _ hd => absurd hd hgone,
          fun _ hd => absurd hd hgone⟩
      · -- the kernel did not let it go
        have hthere : w'.tree.get (lunAt d i) = some (.dir true) := by
          rw [ht]
          exact (hrew.get_eq_some rfl).mpr hself
        have hstep₄ : UnitStep d i w.tree w'.tree f f₁ := by
          rw [ht]
          exact hstep₃
        refine ⟨hstep₄, fun _ => hnone, fun hback hcomplete => ?_, fun hfree _ => .inr ?_⟩
        · have hdir := hback (FileTree.isDir_iff.mpr ⟨true, hthere⟩)
          rw [FileTree.IsDir, lunAt, ← lunAt, hnone] at hdir
          cases hdir
        · obtain ⟨earlier, hlog₁⟩ := hlog₁
          obtain ⟨between, hlog₃⟩ := hlog₃
          dsimp only at hlog₃
          rw [hlog₂, ← hlog₁] at hlog₃
          refine ⟨[], between, earlier, by rw [hlog₄, ← hlog₃]; rfl, fun hfault => ?_⟩
          rw [hlog₃] at hfault
          have hok₃ : LunsOk d w₃.tree f := ⟨h.dir, h.clean, hstep₃.ok.names, fun j hj => ?_⟩
          · exact hfree.rmdir_ok hok₃ hnone hstep₃.made ((hrew.get_eq_some rfl).mpr hself) (hwhy hfault)
          · have hji : j ≠ i := by
              rintro rfl
              exact hnew (hmask.grows j hj)
            exact hstep₃.ok.sound j (hstep₃.keeps j hj hji)
  · rintro - ⟨w₃, f₃⟩ ⟨hfunc, hrew, hcontent⟩
    obtain rfl : f₁ = f₃ := hfunc.symm
    have hstep₃ := hstep₂.trans (hrew.unitStep hstep₂.ok)
    have hpresent : w₃.tree.IsDir (lunAt d i) :=
      FileTree.isDir_iff.mpr ⟨true, (hrew.get_eq_some rfl).mpr hself⟩
    have hstep₄ := hstep₃.trans (unitStep_setLun hstep₃.ok hi hpresent)
    exact ⟨hstep₄, hnone, hpresent, List.mem_cons_self .., fun hcomplete => hstep₄.complete_of_ne hi
      (fun hk j hj _ hd => List.mem_cons_of_mem _ (hothers hcomplete hk j hj hd)) fun _ _ => List.mem_cons_self ..,
      hcontent⟩

/-- `usbg_f_ms_rm_lun` -/
lemma usbgFMsRmLun_ends (h : LunsOk d w.tree f) (hi : i < maxLuns) :
    Ends (fun _ s => UnitStep d i w.tree s.1.tree f s.2 ∧ ¬ s.1.tree.IsDir (lunAt d i) ∧
        (LunsComplete d w.tree f → LunsComplete d s.1.tree s.2) ∧
        s.1.tree = w.tree.prune (lunAt d i) ∧ rmdir w.tree (lunAt d i) = .ok s.1.tree)
      (fun _ s => s.1.tree = w.tree ∧ MaskRead d w.tree f s.2 ∧ (i ∈ s.2.luns → (lunPath f i).Fits →
        M.Grants (.rmdir (lunPath f i)) → ¬ ∃ T', rmdir w.tree (lunAt d i) = .ok T')) False
      (usbgFMsRmLun M.kernel i (w, f)) := by
  rw [usbgFMsRmLun]
  refine Ends.require_bind (fun _ => ?_) fun hlt => absurd (by exact_mod_cast hi) hlt
  refine Ends.bind ((getLunMask_ends h).mono (fun _ _ h => h) fun _ _ h => h.elim) ?_
  rintro luns ⟨w₁, f₁⟩ ⟨ht₁, hmask, rfl, -⟩
  dsimp only at ht₁ hmask
  dsimp only
  rw [if_neg (by omega), Int.toNat_natCast]
  refine Ends.require_bind (fun _ => ?_) fun hout => ⟨ht₁, hmask, fun hin => absurd hin hout⟩
  rw [self_bind_apply]
  have hpath : lunPath f₁ i = lunPath f i := lunPath_congr (hmask.ok.dir.trans h.dir.symm) i
  have hresolve := resolve_lunPath h.dir h.clean i
  rw [hpath]
  refine Ends.require_bind (fun _ => ?_) fun hfits => ⟨ht₁, hmask, fun _ hf => absurd hf hfits⟩
  refine Ends.bind (R := fun _ s => s.2 = f₁ ∧ rmdir w.tree (lunAt d i) = .ok s.1.tree)
    (ends_io (ends_rmdir (fun w' hrmdir _ => ?_) fun e w' hwhy ht _ => ⟨ht.trans ht₁, hmask, ?_⟩)) ?_
  · rw [hresolve, ht₁] at hrmdir
    exact ⟨rfl, hrmdir⟩
  · rintro - - hg ⟨T', hok⟩
    obtain ⟨errno, herr⟩ := hwhy hg
    rw [exec, hresolve, ht₁, ← lunAt, hok] at herr
    cases herr
  rintro - ⟨w₂, f₂⟩ ⟨hfunc, hrmdir⟩
  obtain rfl : f₁ = f₂ := hfunc.symm
  dsimp only at hrmdir
  obtain ⟨-, -, -, ht₂⟩ := rmdir_eq_ok.mp hrmdir
  -- the bit of the unit is cleared, and the unit is gone
  have hclear : ∀ j, j ∈ (clearLun i f₁).luns ↔ j ∈ f₁.luns ∧ j ≠ i := by
    intro j
    rw [clearLun, List.mem_filter, decide_eq_true_eq]
  have hstep : UnitStep d i w.tree w₂.tree f (clearLun i f₁) := by
    rw [ht₂]
    exact hmask.unitStep.trans (unitStep_prune hmask.ok hi rfl rfl hclear)
  have hgone : ¬ w₂.tree.IsDir (lunAt d i) := by
    rw [ht₂, FileTree.IsDir, FileTree.get_prune, if_pos List.prefix_rfl]
    simp
  exact ⟨hstep, hgone, fun hcomplete => hstep.complete_of_ne hi
    (fun hknown j hj hji hd => (hclear j).mpr ⟨hmask.complete hcomplete hknown j hj hd, hji⟩)
    fun _ hd => absurd hd hgone, ht₂, hrmdir⟩

/-! ## An example -/

/-- The directory of a mass storage function. -/
def unitsDir : Path := ["/c".toList, gadgetsDir, "g".toList, functionsDir, "mass_storage.0".toList]

/-- The files that the kernel puts into a new unit. -/
def unitFiles : List (Path × Option CStr) :=
  [(["cdrom".toList], some "0\n".toList), (["ro".toList], some "0\n".toList),
    (["nofua".toList], some "0\n".toList), (["removable".toList], some "1\n".toList),
    (["file".toList], some "\n".toList), (["inquiry_string".toList], some "\n".toList)]

/-- The function in its directory, and the units with these numbers; the kernel has made the first one
itself. -/
def unitsTree (ids : List ℕ) : Tree :=
  FileTree.addAll .empty
    ((unitsDir, .dir true) :: (unitsDir ++ ["stall".toList], .file "1\n".toList) ::
      ids.flatMap fun i => (lunAt unitsDir i, .dir (i ≠ 0)) ::
        unitFiles.map fun e => (lunAt unitsDir i ++ e.1, groupNode e.2))

/-- The function, whose units have not been looked at yet. -/
def unitsFunc : Func := plainFunc .massStorage

/-- A kernel that makes units, but not those whose directories are named here. -/
def unitsMachine (refused : List CStr) : Machine where
  groups _ := unitFiles
  fault _ c :=
    match c with
    | .mkdir p => if ∃ name ∈ refused, name ∈ p then some .enomem else none
    | _ => none
  stale _ := []

/-- Attributes of a unit. -/
def unitAttrs (id : ℤ) (file : CStr) : MsLunAttrs where
  id := id
  vals := [.bool false, .bool false, .bool false, .bool true, .string (some file), .string (some [])]

lemma lunsOk_of_entries {T : Tree} (hclean : f.dir.Clean) (hluns : f.luns = [])
    (h : ∀ e ∈ T.entries, e.1.dropLast = f.dir → scanIndex "lun.".toList (e.1.getLastD []) = .mismatch ∨
      ∃ i < maxLuns, e.1.getLastD [] = lunDir i ∧ e.2.isDir = true) : LunsOk f.dir T f where
  dir := rfl
  clean := hclean
  names name n hn := by
    simpa using h (f.dir ++ [name], n) (FileTree.get_eq_some.mp hn) (by simp)
  sound i hi := by
    rw [hluns] at hi
    cases hi

end Libusbgx
