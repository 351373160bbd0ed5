import Libusbgx.Attributes.RoundTrip
import Libusbgx.MassStorage.GetAttrs
import Libusbgx.Source.Function.Scheme

/-!
# The scheme of a mass storage function

An export lists the units that are there.  An import makes the units with the numbers 0, 1, … of the
entries, and leaves every boolean as it is.
-/

namespace Libusbgx

open Prog Machine

variable {M M' : Machine} {w w' : World Fs} {f f' : Func} {d : Path} {T : Tree} {i j : ℕ} {stall : Bool}
  {vals : ℕ → List AttrVal} {a : Attr} {v : AttrVal}

/-! ## What is assumed and what is shown -/

/-- The file of the function itself. -/
def msStall : Attr := .rw "stall" .bool

/-- The kernel refuses no call in the directory of the function, where all paths are short enough. -/
structure MsUsable (M : Machine) (f : Func) : Prop where
  fits : ∀ i < maxLuns, ∀ a ∈ msLunAttr, (lunPath f i ++ [[], a.name]).Fits
  stallFits : (f.path ++ [f.name, msStall.name]).Fits
  grants : ∀ c : Syscall, f.dir <+: c.path → M.Grants c

/-- A function with its units, the files of which hold the values. -/
structure MsHeld (M : Machine) (w : World Fs) (f : Func) (stall : Bool) (vals : ℕ → List AttrVal) : Prop where
  luns : LunsOk f.dir w.tree f
  complete : LunsComplete f.dir w.tree f
  isDir : w.tree.IsDir f.dir
  usable : MsUsable M f
  stall : AttrHeld f.dir w.tree msStall (.bool stall)
  units : ∀ i ∈ unitsOf f.dir w.tree, AttrsHeld (lunAt f.dir i) w.tree msLunAttr (vals i)

/-- The tree once the unit is there. -/
def unitTree (M : Machine) (d : Path) (T : Tree) (i : ℕ) : Tree :=
  if T.IsDir (lunAt d i) then T else T.addAll (M.newDir (lunAt d i))

/-- A function that was created a moment ago: it has the first unit only, and the kernel puts the files
into every unit. -/
structure MsNew (M : Machine) (w : World Fs) (f : Func) : Prop where
  luns : LunsOk f.dir w.tree f
  unread : f.luns = [] ∧ f.lunsInitiated = false
  isDir : w.tree.IsDir f.dir
  usable : MsUsable M f
  first : ∀ i < maxLuns, w.tree.IsDir (lunAt f.dir i) ↔ i = 0
  files : ∀ i < maxLuns, ∀ a ∈ msLunAttr,
    ∃ content, (unitTree M f.dir w.tree i).get (lunAt f.dir i ++ [a.name]) = some (.file content)

/-- The function `f` is exported, the group is imported into the new function `f'`, and this has the
units and the values of `f` then. -/
def MsRoundTrips (M M' : Machine) (w w' : World Fs) (f f' : Func) (stall : Bool) (vals : ℕ → List AttrVal) : Prop :=
  ∃ root s u' f₁, msLibconfigExport M.kernel [] (w, f) = (.ok root, s) ∧
    msLibconfigImport M'.kernel (.group root) (w', f') = (.ok (), (u', f₁)) ∧
      AttrHeld f'.dir u'.tree msStall (.bool stall) ∧
        ∀ i ∈ unitsOf f.dir w.tree, i ∈ f₁.luns ∧ u'.tree.IsDir (lunAt f'.dir i) ∧
          AttrsHeld (lunAt f'.dir i) u'.tree msLunAttr (vals i)

/-! ## One attribute -/

lemma msLunAttr_facts : (msLunAttr.map Attr.name).Nodup ∧
    ∀ a ∈ msLunAttr, a.name ≠ [] ∧ (a.kind = .bool ∨ a.kind = .string) := by
  decide

namespace MsUsable

variable {path : Path}

lemma grants_below (h : MsUsable M f) (hpath : f.dir <+: path) : M.Grants (.read path) ∧
    (∀ data, M.Grants (.write path data)) ∧ M.Grants (.scandir path) ∧ M.Grants (.mkdir path) :=
  ⟨h.grants (.read path) hpath, fun data => h.grants (.write path data) hpath, h.grants (.scandir path) hpath,
    h.grants (.mkdir path) hpath⟩

lemma congr (h : MsUsable M f) (hf : f'.path = f.path ∧ f'.name = f.name) : MsUsable M f' := by
  obtain ⟨hpath, hname⟩ := hf
  have hluns : ∀ id, lunPath f' id = lunPath f id := fun id => by rw [lunPath, lunPath, hpath, hname]
  have hdir : f'.dir = f.dir := by rw [Func.dir, Func.dir, hpath, hname]
  exact ⟨fun i hi a ha => hluns i ▸ h.fits i hi a ha, by rw [hpath, hname]; exact h.stallFits, hdir ▸ h.grants⟩

lemma lunFits (h : MsUsable M f) (hi : i < maxLuns) : (lunPath f i).Fits := by
  have hfile := h.fits i hi (.rw "cdrom" .bool) (by decide)
  exact prefix_fits (List.prefix_append ..) hfile

end MsUsable

lemma dir_prefix_lunPath (f : Func) (i : ℕ) (q : Path) : f.dir <+: lunPath f i ++ q := by
  refine ⟨[lunDir i, []] ++ q, ?_⟩
  simp [lunPath, Func.dir]

/-- Reading an attribute of a unit. -/
lemma usbgFMsGetLunAttrVal_ok (hclean : f.dir.Clean) (h : MsUsable M f) (hi : i < maxLuns) (ha : a ∈ msLunAttr)
    (htakes : a.kind.Takes v) (hheld : AttrHeld (lunAt f.dir i) w.tree a v) :
    ∃ w', usbgFMsGetLunAttrVal M.kernel i a (w, f) = (.ok v, (w', f)) ∧ w'.tree = w.tree := by
  obtain ⟨hname, hkind⟩ := msLunAttr_facts.2 a ha
  obtain ⟨content, hfile, hheld⟩ := hheld
  rw [lunAt, ← resolve_lunFile rfl hclean i hname] at hfile
  obtain ⟨w', hget, ht⟩ := htakes.get_ok (h.fits i hi a ha) (h.grants_below (dir_prefix_lunPath f i _)).1 hfile hheld
  refine ⟨w', ?_, ht⟩
  rw [usbgFMsGetLunAttrVal, self_bind_apply, require_of (h.lunFits hi), Prog.pure_bind]
  rcases hkind with hkind | hkind <;> rw [hkind] at hget ⊢ <;>
    obtain ⟨x, u, hread, hpure⟩ := bind_eq_ok.mp hget <;> cases hpure
  · exact bind_ok (io_ok (s := (w, f)) hread)
  · exact bind_ok (io_ok (s := (w, f)) hread)

/-- Writing an attribute of a unit. -/
lemma usbgFMsSetLunAttrVal_ok (hclean : f.dir.Clean) (h : MsUsable M f) (hi : i < maxLuns) (ha : a ∈ msLunAttr)
    (htakes : a.kind.Takes v) (hfile : ∃ content, w.tree.get (lunAt f.dir i ++ [a.name]) = some (.file content)) :
    ∃ w', usbgFMsSetLunAttrVal M.kernel i a v (w, f) = (.ok (), (w', f)) ∧
      w'.tree = w.tree.replace (lunAt f.dir i ++ [a.name]) (.file v.rendered) := by
  obtain ⟨content, hfile⟩ := hfile
  have hresolve := resolve_lunFile (f := f) rfl hclean i (msLunAttr_facts.2 a ha).1
  rw [lunAt, ← hresolve] at hfile ⊢
  obtain ⟨w', hset, ht⟩ := usbgWriteBuf_ok (h.fits i hi a ha)
    ((h.grants_below (dir_prefix_lunPath f i _)).2.1 v.rendered) hfile
  refine ⟨w', ?_, ht⟩
  rw [usbgFMsSetLunAttrVal, self_bind_apply, require_of (h.lunFits hi), Prog.pure_bind, htakes.set_eq]
  exact io_ok hset

/-! ## The export -/

/-- The node of a unit. -/
def unitNode (vals : ℕ → List AttrVal) (i : ℕ) : Setting := .group (nodesOf msLunAttr (vals i))

/-- `ms_export_lun_attrs` -/
lemma msExportLunAttrs_ok (hclean : f.dir.Clean) (h : MsUsable M f) (hi : i < maxLuns)
    (hheld : AttrsHeld (lunAt f.dir i) w.tree msLunAttr (vals i)) :
    ∃ s, msExportLunAttrs M.kernel i [] (w, f) = (.ok (nodesOf msLunAttr (vals i)), s) ∧
      s.1.tree = w.tree ∧ s.2 = f := by
  have hzip := (AttrsHeld.iff_zip.mp hheld).2
  have hnodup : ((([] : Members) ++ nodesOf msLunAttr (vals i)).map Prod.fst).Nodup := by
    rw [List.nil_append, hheld.map_name]
    exact msLunAttr_facts.1
  have hround : ∀ av ∈ msLunAttr.zip (vals i), ∀ root (s : World Fs × Func), s.1.tree = w.tree ∧ s.2 = f →
      av.1.name ∉ root.map Prod.fst → ∃ s', (do
        let val ← usbgFMsGetLunAttrVal M.kernel i av.1
        io (av.1.kind.exprt root av.1.name val)) s = (.ok (root ++ [(av.1.name, av.2.node)]), s') ∧
          s'.1.tree = w.tree ∧ s'.2 = f := by
    rintro ⟨a, v⟩ hav root ⟨u, f'⟩ ⟨hu, rfl⟩ hfresh
    obtain ⟨htakes, hval⟩ := hzip _ hav
    obtain ⟨u', hget, ht⟩ := usbgFMsGetLunAttrVal_ok hclean h hi (List.of_mem_zip hav).1 htakes (hu ▸ hval)
    refine ⟨(u', f'), ?_, ht.trans hu, rfl⟩
    rw [bind_ok hget]
    exact io_ok (htakes.exprt_ok hfresh)
  obtain ⟨s, hrun, hs⟩ := foldlM_nodes (I := fun s : World Fs × Func => s.1.tree = w.tree ∧ s.2 = f) hnodup hround
    (s := (w, f)) ⟨rfl, rfl⟩
  refine ⟨s, ?_, hs⟩
  rw [msExportLunAttrs, hheld.foldlM_eq]
  exact hrun

/-- The mask when it can be read: all units are in it. -/
lemma getLunMask_complete (hluns : LunsOk f.dir w.tree f) (hcomplete : LunsComplete f.dir w.tree f)
    (hdir : w.tree.IsDir f.dir) (h : MsUsable M f) :
    ∃ w' f', getLunMask M.kernel (w, f) = (.ok f'.luns, (w', f')) ∧ w'.tree = w.tree ∧ LunsOk f.dir w.tree f' ∧
      f'.lunsInitiated = true ∧ LunsComplete f.dir w.tree f' := by
  obtain ⟨luns, ⟨w', f'⟩, hrun, ht, hmask, rfl, hread⟩ := (getLunMask_ends (M := M) hluns).exists_ok
  have hpath : f.dir <+: f.path ++ [f.name, []] := ⟨[[]], by simp [Func.dir]⟩
  have hknown := hread (fits_funcDir h.stallFits) (h.grants_below hpath).2.2.1 hdir
  exact ⟨w', f', hrun, ht, hmask.ok, hknown, hmask.complete hcomplete⟩

/-- A mask that has been read is used as it is. -/
lemma getLunMask_known {κ : Type} {K : Kernel κ} {u : World κ} (h : f.lunsInitiated = true) :
    getLunMask K (u, f) = (.ok f.luns, (u, f)) := by
  rw [getLunMask, self_bind_apply, when_of_not (by simpa using h)]
  rfl

lemma LunsOk.mem_iff (h : LunsOk d T f) (hknown : f.lunsInitiated = true) (hcomplete : LunsComplete d T f)
    (hi : i < maxLuns) : i ∈ f.luns ↔ T.IsDir (lunAt d i) :=
  ⟨fun hmem => (h.sound i hmem).2, hcomplete hknown i hi⟩

lemma flatMap_ite {α β : Type} (p : α → Prop) [DecidablePred p] (g : α → β) (l : List α) :
    (l.flatMap fun x => if p x then [g x] else []) = (l.filter fun x => p x).map g := by
  induction l with
  | nil => rfl
  | cons x l ih =>
    rw [List.flatMap_cons, ih]
    by_cases hx : p x <;> simp [hx]

/-- `usbg_f_ms_get_stall` -/
lemma usbgFMsGetStall_ok (hclean : f.dir.Clean) (h : MsUsable M f)
    (hheld : AttrHeld f.dir w.tree msStall (.bool stall)) :
    ∃ w', usbgFMsGetStall M.kernel (w, f) = (.ok stall, (w', f)) ∧ w'.tree = w.tree := by
  obtain ⟨content, hfile, hheld⟩ := hheld
  rw [← resolve_attrFile hclean (by decide)] at hfile
  have hpath : f.dir <+: f.path ++ [f.name, msStall.name] := ⟨[msStall.name], by simp [Func.dir]⟩
  have htakes : AttrKind.bool.Takes (.bool stall) := rfl
  obtain ⟨w', hget, ht⟩ := htakes.get_ok h.stallFits (h.grants_below hpath).1 hfile hheld
  obtain ⟨b, u, hread, hpure⟩ := bind_eq_ok.mp hget
  cases hpure
  exact ⟨w', io_ok (s := (w, f)) hread, ht⟩

/-- The group that an export makes. -/
def msNodes (stall : Bool) (vals : ℕ → List AttrVal) (ids : List ℕ) : Members :=
  [(msStall.name, .bool stall), ("luns".toList, .list (ids.map (unitNode vals)))]

/-- `ms_libconfig_export` -/
lemma msLibconfigExport_ok (h : MsHeld M w f stall vals) :
    ∃ s, msLibconfigExport M.kernel [] (w, f) = (.ok (msNodes stall vals (unitsOf f.dir w.tree)), s) := by
  obtain ⟨w₁, hstall, ht₁⟩ := usbgFMsGetStall_ok h.luns.clean h.usable h.stall
  obtain ⟨w₂, f₂, hmask, ht₂, hluns, hknown, hcomplete⟩ :=
    getLunMask_complete (w := w₁) (by rw [ht₁]; exact h.luns) (by rw [ht₁]; exact h.complete) (by rw [ht₁]; exact h.isDir)
      h.usable
  rw [ht₁] at ht₂ hluns hcomplete
  have hsame : f₂.path = f.path ∧ f₂.name = f.name := by
    obtain ⟨hpath, hname⟩ := List.append_inj' hluns.dir rfl
    exact ⟨hpath, (List.cons.inj hname).1⟩
  have husable := h.usable.congr hsame
  have hclean : f₂.dir.Clean := hluns.dir ▸ h.luns.clean
  -- one round of the loop adds the node of a unit, if there is one
  have hround : ∀ i ∈ List.range maxLuns, ∀ nodes (s : World Fs × Func), s.1.tree = w.tree ∧ s.2 = f₂ →
      ∃ s', msExportLun M.kernel nodes i s = (.ok (nodes ++ if i ∈ f₂.luns then [unitNode vals i] else []), s') ∧
        s'.1.tree = w.tree ∧ s'.2 = f₂ := by
    rintro i hi nodes ⟨u, f'⟩ ⟨hu, rfl⟩
    dsimp only at hu
    have hlt := List.mem_range.mp hi
    rw [msExportLun, self_bind_apply]
    by_cases hmem : i ∈ f'.luns
    · obtain ⟨s', hrun, hs'⟩ := msExportLunAttrs_ok (w := u) hclean husable hlt (by
        rw [hluns.dir, hu]
        exact h.units i (mem_unitsOf.mpr (hluns.sound i hmem)))
      refine ⟨s', ?_, hs'.1.trans hu, hs'.2⟩
      rw [if_neg (not_not.mpr hmem), bind_ok hrun, if_pos hmem]
      rfl
    · exact ⟨(u, f'), by rw [if_pos hmem, if_neg hmem, List.append_nil]; rfl, hu, rfl⟩
  obtain ⟨s, hloop, -⟩ := foldlM_appended (I := fun s : World Fs × Func => s.1.tree = w.tree ∧ s.2 = f₂) hround []
    (s := (w₂, f₂)) ⟨ht₂, rfl⟩
  have hids : ((List.range maxLuns).filter fun i => i ∈ f₂.luns) = unitsOf f.dir w.tree :=
    List.filter_congr fun i hi =>
      decide_eq_decide.mpr (hluns.mem_iff hknown hcomplete (List.mem_range.mp hi))
  rw [flatMap_ite, hids] at hloop
  refine ⟨s, ?_⟩
  have hadd : (io (ofExcept (usbgSetConfigNodeBool [] "stall".toList stall)) : On Fs Func Members) (w₁, f) =
      (.ok [(msStall.name, .bool stall)], (w₁, f)) := rfl
  have hne : "luns".toList ≠ msStall.name := by decide
  have hnew : "luns".toList ∉ ([(msStall.name, Setting.bool stall)] : Members).map Prod.fst := fun hmem =>
    hne (List.mem_singleton.mp hmem)
  refine (bind_ok hstall).trans ((bind_ok hadd).trans ?_)
  rw [addNode, if_neg hnew, Prog.bind_assoc, bind_ok hmask, Prog.bind_assoc, bind_ok hloop]
  rfl

/-! ## The import -/

/-- One round of the loop of `ms_import_lun_attrs` -/
def msImportLunRound {κ : Type} (K : Kernel κ) (lunId : ℤ) (root : Setting) (a : Attr) : On κ Func Unit := do
  match ← ofExcept (a.kind.imprt root a.name) with
  | none => pure ()
  | some val => usbgFMsSetLunAttrVal K lunId a val

/-- `ms_import_lun_attrs`, of the node of a unit -/
lemma msImportLunAttrs_ok (hclean : f.dir.Clean) (h : MsUsable M f) (hi : i < maxLuns)
    (hheld : AttrsHeld d T msLunAttr (vals j))
    (hfiles : ∀ a ∈ msLunAttr, ∃ content, w.tree.get (lunAt f.dir i ++ [a.name]) = some (.file content)) :
    ∃ w', msImportLunAttrs M.kernel i (unitNode vals j) (w, f) = (.ok (), (w', f)) ∧
      Written (fun av : Attr × AttrVal => lunAt f.dir i ++ [av.1.name]) imported (msLunAttr.zip (vals j)) w.tree
        w'.tree := by
  have hzip := (AttrsHeld.iff_zip.mp hheld).2
  have hnames : ((nodesOf msLunAttr (vals j)).map Prod.fst).Nodup := by
    rw [hheld.map_name]
    exact msLunAttr_facts.1
  have hround : ∀ av ∈ msLunAttr.zip (vals j), ∀ s : World Fs × Func, s.2 = f →
      (∃ content, s.1.tree.get (lunAt f.dir i ++ [av.1.name]) = some (.file content)) →
      ∃ s', msImportLunRound M.kernel i (unitNode vals j) av.1 s = (.ok (), s') ∧ s'.2 = f ∧
          s'.1.tree = writeRound (fun av : Attr × AttrVal => lunAt f.dir i ++ [av.1.name]) imported s.1.tree av := by
    rintro ⟨a, v⟩ hav ⟨u, f⟩ rfl hfile
    have ha := (List.of_mem_zip hav).1
    have htakes := (hzip _ hav).1
    rw [msImportLunRound, unitNode, imprt_node (.inr (msLunAttr_facts.2 a ha).2) htakes (getMember_nodesOf hnames hav), ofExcept_ok,
      Prog.pure_bind, writeRound, imported]
    by_cases hkind : a.kind = .bool
    · rw [if_pos hkind, if_pos hkind]
      exact ⟨(u, f), rfl, rfl, rfl⟩
    · rw [if_neg hkind, if_neg hkind]
      obtain ⟨u', hset, ht⟩ := usbgFMsSetLunAttrVal_ok hclean h hi ha htakes hfile
      exact ⟨(u', f), hset, rfl, ht⟩
  obtain ⟨⟨w', f'⟩, hrun, rfl, hwritten⟩ := forEach_written (fun s : World Fs × Func => s.1.tree)
    (I := fun s => s.2 = f) (hheld.nodup_paths msLunAttr_facts.1 _) hround (s := (w, f)) rfl
    fun av hav => hfiles av.1 (List.of_mem_zip hav).1
  refine ⟨w', ?_, hwritten⟩
  rw [msImportLunAttrs, hheld.forEach_eq]
  exact hrun

lemma properName_lunDir (hi : i < maxLuns) : ProperName (lunDir i) := by
  have key : ∀ i < maxLuns, ProperName (lunDir (i : ℕ)) := by decide
  exact key i hi

/-- `usbg_f_ms_create_lun`, for a unit that is not there -/
lemma usbgFMsCreateLun_ok (hluns : LunsOk f.dir w.tree f) (hknown : f.lunsInitiated = true)
    (hdir : w.tree.IsDir f.dir) (h : MsUsable M f) (hi : i < maxLuns) (hmissing : ¬ w.tree.IsDir (lunAt f.dir i)) :
    ∃ w', usbgFMsCreateLun M.kernel i none (w, f) = (.ok (), (w', setLun i f)) ∧
      w'.tree = w.tree.addAll (M.newDir (lunAt f.dir i)) := by
  have hnone : w.tree.get (lunAt f.dir i) = none := by
    by_contra hsome
    exact hmissing ((hluns.isDir hi).mpr hsome)
  have hnew : i ∉ f.luns := fun hmem => hmissing (hluns.sound i hmem).2
  have hresolve : (lunPath f i).resolve = lunAt f.dir i := resolve_lunPath rfl hluns.clean i
  have hexec : M.exec (.mkdir (lunPath f i)) w.tree = .ok ((), w.tree.addAll (M.newDir (lunAt f.dir i))) := by
    refine exec_mkdir.mpr (mkdir_eq_ok.mpr ?_)
    rw [hresolve]
    refine ⟨hnone, ?_, ?_, rfl⟩
    · rwa [lunAt, List.dropLast_concat]
    · rw [lunAt, List.getLastD_concat]
      exact properName_lunDir hi
  have hgrants := (h.grants_below (by simpa using dir_prefix_lunPath f i [])).2.2.2
  obtain ⟨w', hcall, ht, -⟩ := call_ok hgrants hexec
  refine ⟨w', ?_, ht⟩
  rw [usbgFMsCreateLun, require_of (by exact_mod_cast hi), Prog.pure_bind, bind_ok (getLunMask_known hknown)]
  rw [if_neg (by omega), Int.toNat_natCast, require_of hnew, Prog.pure_bind, self_bind_apply,
    require_of (h.lunFits hi), Prog.pure_bind]
  exact bind_ok (io_ok (s := (w, f)) hcall)

/-- The function after the entries for the first `n` units: these are there, and what was to be written
has been written; the other places are as they were in the tree `T`. -/
structure UnitsImported (M : Machine) (d : Path) (T : Tree) (vals : ℕ → List AttrVal) (n : ℕ) (s : World Fs × Func) :
    Prop where
  luns : LunsOk d s.1.tree s.2
  known : s.2.lunsInitiated = true
  complete : LunsComplete d s.1.tree s.2
  isDir : s.1.tree.IsDir d
  usable : MsUsable M s.2
  present : ∀ i < n, s.1.tree.IsDir (lunAt d i)
  written : ∀ i < n, ∀ av ∈ msLunAttr.zip (vals i), s.1.tree.get (lunAt d i ++ [av.1.name]) =
    ((imported av).map Node.file).or ((unitTree M d T i).get (lunAt d i ++ [av.1.name]))
  rest : ∀ i < maxLuns, n ≤ i → ∀ q, lunAt d i <+: q → s.1.tree.get q = T.get q
  stall : s.1.tree.get (d ++ [msStall.name]) = T.get (d ++ [msStall.name])

/-- The unit of the next entry, which is made if it is not there. -/
lemma nextUnit_ok {n : ℕ} {s : World Fs × Func} (h : UnitsImported M d T vals n s) (hn : n < maxLuns) :
    ∃ s', (if maxLuns ≤ n then undef else when (n ∉ s.2.luns) (usbgFMsCreateLun M.kernel n none) :
        On Fs Func Unit) s = (.ok (), s') ∧
      (∀ q, lunAt d n <+: q → s'.1.tree.get q = (unitTree M d T n).get q) ∧ s'.1.tree.IsDir (lunAt d n) ∧
      Outside (lunAt d n) s.1.tree s'.1.tree ∧ s'.2.dir = s.2.dir ∧ LunsOk d s'.1.tree s'.2 ∧
      s'.2.lunsInitiated = true ∧ LunsComplete d s'.1.tree s'.2 ∧ MsUsable M s'.2 := by
  obtain ⟨w, f⟩ := s
  obtain rfl : f.dir = d := h.luns.dir
  rw [if_neg (by omega)]
  have hsame : T.IsDir (lunAt f.dir n) ↔ w.tree.IsDir (lunAt f.dir n) := by
    rw [FileTree.IsDir, FileTree.IsDir, h.rest n hn le_rfl _ List.prefix_rfl]
  -- a unit that the kernel has made is kept, any other is made
  by_cases hmem : n ∈ f.luns
  · have hdir := (h.luns.sound n hmem).2
    refine ⟨(w, f), by rw [when_of_not (not_not.mpr hmem)]; rfl, fun q hq => ?_, hdir, fun _ _ => rfl, rfl, h.luns,
      h.known, h.complete, h.usable⟩
    rw [unitTree, if_pos (hsame.mpr hdir)]
    exact h.rest n hn le_rfl q hq
  · have hmissing : ¬ w.tree.IsDir (lunAt f.dir n) := fun hdir => hmem (h.complete h.known n hn hdir)
    obtain ⟨w', hrun, ht⟩ := usbgFMsCreateLun_ok h.luns h.known h.isDir h.usable hn hmissing
    have hnone : w.tree.get (lunAt f.dir n) = none := by
      by_contra hsome
      exact hmissing ((h.luns.isDir hn).mpr hsome)
    have hstep := unitStep_newDir M h.luns hn hnone
    have hself : (w.tree.addAll (M.newDir (lunAt f.dir n))).IsDir (lunAt f.dir n) :=
      FileTree.isDir_iff.mpr ⟨true, get_newDir_self hnone⟩
    refine ⟨(w', setLun n f), by rw [when_of hmem, hrun], ?_⟩
    dsimp only
    rw [ht]
    refine ⟨fun q hq => ?_, hself, hstep.outside, rfl, (unitStep_setLun hstep.ok hn hself).ok, h.known,
      fun _ i hi hdir => ?_, h.usable.congr ⟨rfl, rfl⟩⟩
    · rw [unitTree, if_neg (fun hdir => hmissing (hsame.mp hdir)), get_newDir, get_newDir, h.rest n hn le_rfl q hq]
    · by_cases hin : i = n
      · rw [hin]
        exact List.mem_cons_self ..
      · exact List.mem_cons_of_mem _ (h.complete h.known i hi ((hstep.isDir_iff hn hi hin).mp hdir))

/-- One round of the loop of `ms_libconfig_import` -/
lemma msImportLun_ok {n : ℕ} {s : World Fs × Func} (h : UnitsImported M d T vals n s) (hn : n < maxLuns)
    {d₀ : Path} {T₀ : Tree} (hheld : AttrsHeld d₀ T₀ msLunAttr (vals n))
    (hfiles : ∀ a ∈ msLunAttr, ∃ content, (unitTree M d T n).get (lunAt d n ++ [a.name]) = some (.file content)) :
    ∃ s', msImportLun M.kernel n (unitNode vals n) s = (.ok (), s') ∧ UnitsImported M d T vals (n + 1) s' := by
  obtain ⟨⟨w₁, f₁⟩, hunit, hplace, hpresent, hout, hdir, hluns, hknown, hcomplete, husable⟩ := nextUnit_ok h hn
  obtain rfl : f₁.dir = d := hluns.dir
  dsimp only at hplace hpresent hout hluns hcomplete
  obtain ⟨w₂, hattrs, hwritten⟩ := msImportLunAttrs_ok (w := w₁) hluns.clean husable hn hheld fun a ha => by
    rw [hplace _ (List.prefix_append ..)]
    exact hfiles a ha
  refine ⟨(w₂, f₁), ?_, ?_⟩
  · have hgroup : (unitNode vals n).isGroup = true := rfl
    rw [msImportLun, require_of hgroup, Prog.pure_bind, self_bind_apply, bind_ok hunit]
    exact hattrs
  -- a file of the unit is below its directory
  have hsame : ∀ q, ¬ (lunAt f₁.dir n <+: q ∧ q ≠ lunAt f₁.dir n) → w₂.tree.get q = w₁.tree.get q := by
    intro q hq
    refine hwritten.outside q fun av _ heq => hq ?_
    rw [heq]
    exact ⟨List.prefix_append .., by simp⟩
  have hunits : ∀ name, w₂.tree.get (f₁.dir ++ [name]) = w₁.tree.get (f₁.dir ++ [name]) := by
    intro name
    refine hsame _ fun hq => hq.2 ?_
    exact (hq.1.eq_of_length (by simp [lunAt])).symm
  have hother : ∀ i < maxLuns, i ≠ n → ∀ q, lunAt f₁.dir i <+: q → w₂.tree.get q = s.1.tree.get q := by
    rintro i hi hin _ ⟨r, rfl⟩
    have hnot := not_lunAt_prefix (d := f₁.dir) hn hi hin.symm r
    rw [hsame _ fun hq => hnot hq.1, hout _ hnot]
  have hlunDir : ∀ i, w₂.tree.IsDir (lunAt f₁.dir i) ↔ w₁.tree.IsDir (lunAt f₁.dir i) := fun i => by
    rw [FileTree.IsDir, FileTree.IsDir, lunAt, hunits]
  constructor
  case luns =>
    exact ⟨rfl, hluns.clean, fun name m hm => hluns.names name m (hunits name ▸ hm),
      fun i hi => ⟨(hluns.sound i hi).1, (hlunDir i).mpr (hluns.sound i hi).2⟩⟩
  case known => exact hknown
  case complete => exact fun hk i hi hd => hcomplete hk i hi ((hlunDir i).mp hd)
  case isDir =>
    have hnot : ¬ lunAt f₁.dir n <+: f₁.dir := fun hpre => by
      have := hpre.length_le
      simp [lunAt] at this
    rw [FileTree.IsDir, hsame _ fun hq => hnot hq.1, hout _ hnot]
    exact h.isDir
  case usable => exact husable
  case present =>
    intro i hi
    by_cases hin : i = n
    · rw [hin, hlunDir]
      exact hpresent
    · rw [FileTree.IsDir, hother i (by omega) hin _ List.prefix_rfl]
      exact h.present i (by omega)
  case written =>
    intro i hi av hav
    by_cases hin : i = n
    · subst hin
      rw [hwritten.get av hav, hplace _ (List.prefix_append ..)]
    · rw [hother i (by omega) hin _ (List.prefix_append ..)]
      exact h.written i (by omega) av hav
  case rest =>
    intro i hi hle q hq
    rw [hother i hi (by omega) q hq]
    exact h.rest i hi (by omega) q hq
  case stall =>
    have hnot : ¬ lunAt f₁.dir n <+: f₁.dir ++ [msStall.name] := fun hpre => by
      have heq := hpre.eq_of_length (by simp [lunAt])
      have hscan := scanIndex_lunDir hn
      rw [lunAt, List.append_cancel_left_eq] at heq
      have hmismatch : scanIndex "lun.".toList msStall.name = .mismatch := by decide
      rw [(List.cons.inj heq).1, hmismatch] at hscan
      cases hscan
    rw [hsame _ fun hq => hnot hq.1, hout _ hnot]
    exact h.stall

/-- A group of units, and an import of it into a new function. -/
lemma msLibconfigImport_ok (stall : Bool) (h : MsNew M w f) {n : ℕ} (hn : n ≤ maxLuns)
    (hheld : ∀ k < n, ∃ d T, AttrsHeld d T msLunAttr (vals k)) :
    ∃ s, msLibconfigImport M.kernel (.group (msNodes stall vals (List.range n))) (w, f) = (.ok (), s) ∧
      UnitsImported M f.dir w.tree vals n s := by
  obtain ⟨w₁, f₁, hmask, ht, hluns, hknown, hcomplete⟩ :=
    getLunMask_complete h.luns (fun hk => by simp [h.unread.2] at hk) h.isDir h.usable
  have hsame : f₁.path = f.path ∧ f₁.name = f.name := by
    obtain ⟨hpath, hname⟩ := List.append_inj' hluns.dir rfl
    exact ⟨hpath, (List.cons.inj hname).1⟩
  have hstart : UnitsImported M f.dir w.tree vals 0 (w₁, f₁) := by
    refine ⟨?_, hknown, ?_, ?_, h.usable.congr hsame, by simp, by simp, fun _ _ _ _ _ => ?_, ?_⟩ <;> dsimp only <;>
      rw [ht]
    · exact hluns
    · exact hcomplete
    · exact h.isDir
  have hloop := Ends.forEachIdx (E := fun _ _ => False) (U := False) (f := fun ni => msImportLun M.kernel ni.2 ni.1)
    (l := (List.range n).map (unitNode vals)) (UnitsImported M f.dir w.tree vals) (fun k hk s hs => by
      have hk' : k < n := by simpa using hk
      obtain ⟨d₀, T₀, hvals⟩ := hheld k hk'
      obtain ⟨s', hrun, hs'⟩ := msImportLun_ok hs (hk'.trans_le hn) hvals (h.files k (hk'.trans_le hn))
      rw [List.getElem_map, List.getElem_range]
      dsimp only
      rw [hrun]
      exact hs') hstart
  obtain ⟨u, s, hrun, hs⟩ := hloop.exists_ok
  rw [List.length_map, List.length_range] at hs
  refine ⟨s, ?_, hs⟩
  have hstall : usbgGetConfigNodeBool (.group (msNodes stall vals (List.range n))) "stall".toList = .ok none := rfl
  have hmember : (Setting.group (msNodes stall vals (List.range n))).getMember "luns".toList =
      some (.list ((List.range n).map (unitNode vals))) := rfl
  rw [msLibconfigImport, hstall, ofExcept_ok, Prog.pure_bind, hmember]
  refine (bind_ok hmask).trans ?_
  exact hrun

/-! ## The round trip -/

lemma unitsContiguous_iff : UnitsContiguous d T ↔ unitsOf d T = List.range (unitsOf d T).length := by
  refine ⟨UnitsContiguous.unitsOf_eq, fun h i j hij hj hdir => ?_⟩
  have hmem := mem_unitsOf.mpr ⟨hj, hdir⟩
  rw [h, List.mem_range] at hmem
  have hi : i ∈ unitsOf d T := by
    rw [h, List.mem_range]
    omega
  exact (mem_unitsOf.mp hi).2

lemma getD_of_lt {ids : List ℕ} (hi : i < ids.length) : ids.getD i 0 = ids[i] := by
  rw [List.getD_eq_getElem?_getD, List.getElem?_eq_getElem hi, Option.getD_some]

/-- The nodes of an export are those of the first numbers, with the values of the units. -/
lemma msNodes_range (ids : List ℕ) :
    msNodes stall vals ids = msNodes stall (fun k => vals (ids.getD k 0)) (List.range ids.length) := by
  have hmap : ids = (List.range ids.length).map fun k => ids.getD k 0 := by
    refine List.ext_getElem (by simp) fun k hk _ => ?_
    rw [List.getElem_map, List.getElem_range]
    exact (getD_of_lt hk).symm
  rw [msNodes, msNodes]
  conv_lhs => rw [hmap, List.map_map]
  rfl

namespace UnitsImported

variable {n : ℕ} {s : World Fs × Func}

/-- The units are the first one and those that have been imported. -/
lemma isDir_iff (h : UnitsImported M d T vals n s) (hfirst : ∀ i < maxLuns, T.IsDir (lunAt d i) ↔ i = 0)
    (hi : i < maxLuns) : s.1.tree.IsDir (lunAt d i) ↔ i = 0 ∨ i < n := by
  by_cases hin : i < n
  · exact iff_of_true (h.present i hin) (.inr hin)
  · rw [FileTree.IsDir, h.rest i hi (by omega) _ List.prefix_rfl, ← FileTree.IsDir, hfirst i hi]
    simp [hin]

/-- The values of a unit that has been imported. -/
lemma attrsHeld_iff (h : UnitsImported M d T vals n s) (hi : i < n) {d₀ : Path} {T₀ : Tree}
    (hheld : AttrsHeld d₀ T₀ msLunAttr (vals i)) :
    AttrsHeld (lunAt d i) s.1.tree msLunAttr (vals i) ↔
      BoolsHeld (lunAt d i) (unitTree M d T i) msLunAttr (vals i) :=
  hheld.of_written (fun a ha => .inr (msLunAttr_facts.2 a ha).2) (h.written i hi)

end UnitsImported

/-- Numbers in order that are smaller than their count have no gap. -/
lemma eq_range_of_lt {ids : List ℕ} (hids : ids.Pairwise (· < ·)) (hlt : ∀ i ∈ ids, i < ids.length) :
    ids = List.range ids.length := by
  have hsub : ids.Subperm (List.range ids.length) :=
    List.subperm_of_subset (hids.imp fun h => h.ne) fun i hi => List.mem_range.mpr (hlt i hi)
  have hperm := hsub.perm_of_length_le (by rw [List.length_range])
  exact hperm.eq_of_pairwise (fun i j _ _ hij hji => absurd hij hji.asymm) hids List.pairwise_lt_range

/-- A scheme gives back a mass storage function exactly when the numbers of the units have no gap, and the
booleans need no import. -/
theorem msRoundTrips_iff (M M' : Machine) (w w' : World Fs) (f f' : Func) (stall : Bool) (vals : ℕ → List AttrVal)
    (h : MsHeld M w f stall vals) (h' : MsNew M' w' f') :
    MsRoundTrips M M' w w' f f' stall vals ↔
      UnitsContiguous f.dir w.tree ∧ AttrHeld f'.dir w'.tree msStall (.bool stall) ∧
        ∀ i ∈ unitsOf f.dir w.tree,
          BoolsHeld (lunAt f'.dir i) (unitTree M' f'.dir w'.tree i) msLunAttr (vals i) := by
  obtain ⟨ids, hids⟩ : ∃ ids, ids = unitsOf f.dir w.tree := ⟨_, rfl⟩
  have hsub : ids.Sublist (List.range maxLuns) := by
    rw [hids]
    exact List.filter_sublist
  have hlen : ids.length ≤ maxLuns := by simpa using hsub.length_le
  obtain ⟨s, hexport⟩ := msLibconfigExport_ok h
  have hunits := h.units
  rw [MsRoundTrips, unitsContiguous_iff]
  rw [← hids] at hexport hunits ⊢
  rw [msNodes_range] at hexport
  have hheld : ∀ k < ids.length, ids.getD k 0 ∈ ids := fun k hk => by
    rw [getD_of_lt hk]
    exact List.getElem_mem hk
  obtain ⟨⟨u', f₁⟩, himport, hdone⟩ := msLibconfigImport_ok stall h' hlen fun k hk =>
    ⟨_, _, hunits _ (hheld k hk)⟩
  have hstall : AttrHeld f'.dir u'.tree msStall (.bool stall) ↔ AttrHeld f'.dir w'.tree msStall (.bool stall) := by
    rw [AttrHeld, AttrHeld, hdone.stall]
  -- the import numbers the units from 0 on, so each unit keeps its number only without gaps
  have hattrs : ids = List.range ids.length → ∀ i ∈ ids, AttrsHeld (lunAt f'.dir i) u'.tree msLunAttr (vals i) ↔
      BoolsHeld (lunAt f'.dir i) (unitTree M' f'.dir w'.tree i) msLunAttr (vals i) := by
    intro hrange i hi
    have hlt : i < ids.length := by
      rw [hrange] at hi
      exact List.mem_range.mp hi
    have hnumber : ids.getD i 0 = i := by
      rw [hrange, getD_of_lt (by rwa [List.length_range]), List.getElem_range]
    have hvals : AttrsHeld (lunAt f.dir (ids.getD i 0)) w.tree msLunAttr (vals (ids.getD i 0)) := hunits _ (hheld i hlt)
    have hiff := hdone.attrsHeld_iff hlt hvals
    rwa [hnumber] at hiff
  constructor
  · rintro ⟨root, s', u'', f₂, hexport', himport', hstall', hall⟩
    rw [hexport] at hexport'
    cases hexport'
    rw [himport] at himport'
    cases himport'
    have hrange : ids = List.range ids.length := by
      refine eq_range_of_lt (List.pairwise_lt_range.sublist hsub) fun i hi => ?_
      have hlt := List.mem_range.mp (hsub.subset hi)
      rcases (hdone.isDir_iff h'.first hlt).mp (hall i hi).2.1 with rfl | hlt
      · exact List.length_pos_of_mem hi
      · exact hlt
    exact ⟨hrange, hstall.mp hstall', fun i hi => (hattrs hrange i hi).mp (hall i hi).2.2⟩
  · rintro ⟨hrange, hstall', hbools⟩
    refine ⟨_, s, u', f₁, hexport, himport, hstall.mpr hstall', fun i hi => ?_⟩
    have hlt : i < ids.length := by
      rw [hrange] at hi
      exact List.mem_range.mp hi
    have hdir := hdone.present i hlt
    exact ⟨(hdone.luns.mem_iff hdone.known hdone.complete (hlt.trans_le hlen)).mpr hdir, hdir,
      (hattrs hrange i hi).mpr (hbools i hi)⟩

/-! ## An example -/

/-- The values that the kernel gives to a unit. -/
def unitVals : List AttrVal := (unitAttrs 0 []).vals

lemma unitVals_held (h : ∀ e ∈ unitFiles, T.get (d ++ e.1) = some (groupNode e.2)) :
    AttrsHeld d T msLunAttr unitVals := by
  have hbool : ∀ b name content, (name, some content) ∈ unitFiles → content = (AttrVal.bool b).rendered →
      ∃ c, T.get (d ++ name) = some (.file c) ∧ (AttrVal.bool b).HeldBy c := by
    rintro b name content hmem rfl
    exact ⟨_, h _ hmem, AttrVal.Plain.heldBy trivial⟩
  have hstring : ∀ name, (name, some "\n".toList) ∈ unitFiles →
      ∃ c, T.get (d ++ name) = some (.file c) ∧ (AttrVal.string (some [])).HeldBy c := fun name hmem =>
    ⟨_, h _ hmem, by
      rw [AttrVal.HeldBy]
      decide +kernel⟩
  refine .cons ⟨rfl, hbool false _ _ (by decide) rfl⟩ (.cons ⟨rfl, hbool false _ _ (by decide) rfl⟩ ?_)
  refine .cons ⟨rfl, hbool false _ _ (by decide) rfl⟩ (.cons ⟨rfl, hbool true _ _ (by decide) rfl⟩ ?_)
  exact .cons ⟨rfl, hstring _ (by decide)⟩ (.cons ⟨rfl, hstring _ (by decide)⟩ .nil)

lemma usable_unitsFunc : MsUsable (unitsMachine []) unitsFunc where
  fits := by decide +kernel
  stallFits := by decide +kernel
  grants c _ := by cases c <;> simp [Machine.Grants, unitsMachine]

/-- The function with the units of these numbers. -/
lemma msHeld_units (ids : List ℕ) (hluns : LunsOk unitsFunc.dir (worldOf (unitsTree ids)).tree unitsFunc)
    (hdir : (unitsTree ids).IsDir unitsFunc.dir)
    (hstall : (unitsTree ids).get (unitsFunc.dir ++ [msStall.name]) = some (.file "1\n".toList))
    (hunits : ∀ i ∈ unitsOf unitsFunc.dir (unitsTree ids), ∀ e ∈ unitFiles,
      (unitsTree ids).get (lunAt unitsFunc.dir i ++ e.1) = some (groupNode e.2)) :
    MsHeld (unitsMachine []) (worldOf (unitsTree ids)) unitsFunc true fun _ => unitVals where
  luns := hluns
  complete hk := by cases hk
  isDir := hdir
  usable := usable_unitsFunc
  stall := ⟨_, hstall, AttrVal.Plain.heldBy (v := .bool true) trivial⟩
  units i hi := unitVals_held (hunits i hi)

lemma msNew_units : MsNew (unitsMachine []) (worldOf (unitsTree [0])) unitsFunc where
  luns := lunsOk_units [0] (by decide +kernel)
  unread := ⟨rfl, rfl⟩
  isDir := by decide +kernel
  usable := usable_unitsFunc
  first := by decide +kernel
  files i hi a ha := exists_file_of_any (by
    revert i a
    decide +kernel)

/-- Units without a gap, all of which have the booleans of new units. -/
theorem msRoundTrips_two :
    MsRoundTrips (unitsMachine []) (unitsMachine []) (worldOf (unitsTree [0, 1])) (worldOf (unitsTree [0])) unitsFunc
      unitsFunc true fun _ => unitVals := by
  have hheld := msHeld_units [0, 1] (lunsOk_units [0, 1] (by decide +kernel)) (by decide +kernel) (by decide +kernel)
    (by decide +kernel)
  refine (msRoundTrips_iff (unitsMachine []) (unitsMachine []) _ _ _ _ _ _ hheld msNew_units).mpr ⟨?_, ?_, ?_⟩
  · rw [unitsContiguous_iff]
    decide +kernel
  · exact ⟨"1\n".toList, by decide +kernel, AttrVal.Plain.heldBy (v := .bool true) trivial⟩
  · intro i hi av hav _
    have hnew : ∀ i ∈ unitsOf unitsFunc.dir (unitsTree [0, 1]), ∀ e ∈ unitFiles,
        (unitTree (unitsMachine []) unitsFunc.dir (unitsTree [0]) i).get (lunAt unitsFunc.dir i ++ e.1) =
          some (groupNode e.2) := by decide +kernel
    exact ((AttrsHeld.iff_zip.mp (unitVals_held (hnew i hi))).2 av hav).2

/-- The export of a function with this tree, and the import into the one with the other tree. -/
def schemeRun (T T' : Tree) : Option (World Fs × Func) :=
  match msLibconfigExport (unitsMachine []).kernel [] (worldOf T, unitsFunc) with
  | (.ok root, _) =>
    match msLibconfigImport (unitsMachine []).kernel (.group root) (worldOf T', unitsFunc) with
    | (.ok (), s) => some s
    | _ => none
  | _ => none

lemma MsRoundTrips.schemeRun {T' : Tree}
    (h : MsRoundTrips (unitsMachine []) (unitsMachine []) (worldOf T) (worldOf T') unitsFunc unitsFunc stall vals) :
    ∃ s, schemeRun T T' = some s ∧ AttrHeld unitsFunc.dir s.1.tree msStall (.bool stall) ∧
      ∀ i ∈ unitsOf unitsFunc.dir T, s.1.tree.IsDir (lunAt unitsFunc.dir i) := by
  obtain ⟨root, s, u', f₁, hexport, himport, hstall, hall⟩ := h
  refine ⟨(u', f₁), ?_, hstall, fun i hi => (hall i hi).2.1⟩
  rw [Libusbgx.schemeRun, hexport]
  dsimp only
  rw [himport]

/-- The tree of a function that does not stall. -/
def unstalledTree : Tree := (unitsTree [0]).replace (unitsFunc.dir ++ [msStall.name]) (.file "0\n".toList)

lemma unstalled_held : MsHeld (unitsMachine []) (worldOf unstalledTree) unitsFunc false fun _ => unitVals where
  luns := lunsOk_of_entries ⟨by decide, by decide +kernel⟩ rfl (by decide +kernel)
  complete hk := by cases hk
  isDir := by decide +kernel
  usable := usable_unitsFunc
  stall := ⟨"0\n".toList, by decide +kernel, AttrVal.Plain.heldBy (v := .bool false) trivial⟩
  units i hi := unitVals_held (by
    revert i
    decide +kernel)

/-- The units 0 and 2 come back as the units 0 and 1, and a function that does not stall comes back as one
that does. -/
theorem msRoundTrips_fails :
    MsNew (unitsMachine []) (worldOf (unitsTree [0])) unitsFunc ∧
      (MsHeld (unitsMachine []) (worldOf (unitsTree [0, 2])) unitsFunc true (fun _ => unitVals) ∧
        ¬ MsRoundTrips (unitsMachine []) (unitsMachine []) (worldOf (unitsTree [0, 2])) (worldOf (unitsTree [0]))
          unitsFunc unitsFunc true fun _ => unitVals) ∧
      (MsHeld (unitsMachine []) (worldOf unstalledTree) unitsFunc false (fun _ => unitVals) ∧
        ¬ MsRoundTrips (unitsMachine []) (unitsMachine []) (worldOf unstalledTree) (worldOf (unitsTree [0]))
          unitsFunc unitsFunc false fun _ => unitVals) := by
  refine ⟨msNew_units, ⟨?_, fun h => ?_⟩, unstalled_held, fun h => ?_⟩
  · exact msHeld_units [0, 2] (lunsOk_units [0, 2] (by decide +kernel)) (by decide +kernel) (by decide +kernel)
      (by decide +kernel)
  · obtain ⟨s, hrun, -, hdirs⟩ := h.schemeRun
    have hleft : (schemeRun (unitsTree [0, 2]) (unitsTree [0])).any
        (fun s => s.1.tree.IsDir (lunAt unitsFunc.dir 2)) = false := by decide +kernel
    have hmem : 2 ∈ unitsOf unitsFunc.dir (unitsTree [0, 2]) := by decide +kernel
    rw [hrun, Option.any_some] at hleft
    exact absurd (hdirs 2 hmem) (by simpa using hleft)
  · obtain ⟨s, hrun, ⟨content, hfile, hheld⟩, -⟩ := h.schemeRun
    have hleft : (schemeRun unstalledTree (unitsTree [0])).any
        (fun s => s.1.tree.get (unitsFunc.dir ++ [msStall.name]) = some (.file "1\n".toList)) = true := by
      decide +kernel
    rw [hrun, Option.any_some, decide_eq_true_eq, hfile] at hleft
    obtain rfl : content = "1\n".toList := by simpa using hleft
    have htrue : (AttrVal.bool true).HeldBy "1\n".toList := AttrVal.Plain.heldBy (v := .bool true) trivial
    cases hheld.unique .bool htrue rfl rfl

end Libusbgx
