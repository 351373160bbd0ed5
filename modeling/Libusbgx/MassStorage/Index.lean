import Libusbgx.Attributes.Files
import Libusbgx.Base.Watched
import Libusbgx.MassStorage.Luns

/-!
# The indices of the masks

The functions of a mass storage function once more, each with the indices at which it accesses
`mf->luns` and `luns_to_be`.
-/

namespace Libusbgx

open Prog Machine Watched

/-! ## The functions with their accesses -/

section Accesses

variable {κ : Type} (K : Kernel κ)

/-- A function with the indices it uses; `none` is a variable that has not been set. -/
abbrev Indexed (κ α : Type) : Type := Watched UsbgError (World κ × Func) (Option ℤ) α

/-- An index that is set, and in the range of the arrays. -/
def IndexInRange : Option ℤ → Prop
  | some i => 0 ≤ i ∧ i < maxLuns
  | none => False

instance : (a : Option ℤ) → Decidable (IndexInRange a)
  | some _ => inferInstanceAs (Decidable (_ ∧ _))
  | none => isFalse id

lemma indexInRange_natCast {i : ℕ} (hi : i < maxLuns) : IndexInRange (some (i : ℤ)) :=
  ⟨by omega, by exact_mod_cast hi⟩

/-- One round of the loop of `init_luns` -/
def initLunsRoundIndexed (d : Dirent) : Indexed κ Unit :=
  match scanIndex "lun.".toList d.name with
  | .mismatch => pure ()
  | .eof => access [none] undef
  | .index id =>
    access [some id] (if 0 ≤ id ∧ id < maxLuns then update (setLun id.toNat) else undef)

/-- `init_luns` -/
def initLunsIndexed : Indexed κ Unit := do
  let f ← quiet self
  quiet (require (f.path ++ [f.name, []]).Fits .pathTooLong)
  let ds ← quiet (io (call K (.scandir (f.path ++ [f.name, []]))))
  Watched.forEach initLunsRoundIndexed (ds.filter fileSelect)

/-- `get_lun_mask` -/
def getLunMaskIndexed : Indexed κ (List ℕ) := do
  let f ← quiet self
  Watched.when (¬ f.lunsInitiated) do
    match ← Watched.attempt (initLunsIndexed K) with
    | .ok _ => quiet (update fun f => { f with lunsInitiated := true })
    | .error _ => pure ()
  let f ← quiet self
  pure f.luns

/-- `usbg_f_ms_create_lun`, which reads the mask at the index and sets it there at the end -/
def usbgFMsCreateLunIndexed (lunId : ℤ) (lattrs : Option MsLunAttrs) : Indexed κ Unit := do
  quiet (require (lunId < maxLuns) .invalidParam)
  let luns ← getLunMaskIndexed K
  if lunId < 0 then access [some lunId] undef
  else
    access [some lunId] (require (lunId.toNat ∉ luns) .exist)
    let f ← quiet self
    quiet (require (lunPath f lunId).Fits .pathTooLong)
    quiet (io (call K (.mkdir (lunPath f lunId))))
    quiet (whenSome (fun lattrs =>
      Prog.onFail (usbgFMsSetLunAttrs K lunId lattrs) (io (tryCall K (.rmdir (lunPath f lunId)))))
      lattrs)
    access [some lunId] (update (setLun lunId.toNat))

/-- `usbg_f_ms_rm_lun` -/
def usbgFMsRmLunIndexed (lunId : ℤ) : Indexed κ Unit := do
  quiet (require (lunId < maxLuns) .invalidParam)
  let luns ← getLunMaskIndexed K
  if lunId < 0 then access [some lunId] undef
  else
    access [some lunId] (require (lunId.toNat ∈ luns) .invalidParam)
    let f ← quiet self
    quiet (require (lunPath f lunId).Fits .pathTooLong)
    quiet (io (call K (.rmdir (lunPath f lunId))))
    access [some lunId] (update (clearLun lunId.toNat))

/-- One round of the main loop of `usbg_f_ms_set_attrs`, which looks at both arrays at `i` -/
def msSetAttrsRoundIndexed (attrs : MsAttrs) (toBe : List ℤ) (i : ℕ) : Indexed κ Unit := do
  let f ← access [some (i : ℤ)] self
  if i ∈ f.luns then
    if (i : ℤ) ∈ toBe then
      let l ← quiet (deref (lunAttrsAt attrs i))
      let l ← quiet (deref l)
      quiet (usbgFMsSetLunAttrs K i l)
    else usbgFMsRmLunIndexed K i
  else
    Watched.when ((i : ℤ) ∈ toBe) do
      let l ← quiet (deref (lunAttrsAt attrs i))
      usbgFMsCreateLunIndexed K i l

/-- One round of the clean-up loop of `usbg_f_ms_set_attrs` -/
def msCleanupRoundIndexed (toBe : List ℤ) (i : ℕ) : Indexed κ Unit := do
  let f ← access [some (i : ℤ)] self
  Watched.when (i ∉ f.luns ∧ (i : ℤ) ∈ toBe) do
    let _ ← Watched.attempt (usbgFMsRmLunIndexed K i)
    pure ()

/-- The main loop of `usbg_f_ms_set_attrs` -/
def msSetAttrsLoopIndexed (attrs : MsAttrs) (toBe : List ℤ) (done : List ℕ) :
    (todo : List ℕ) → Indexed κ Unit
  | [] => pure ()
  | i :: todo => do
    Watched.onFail (msSetAttrsRoundIndexed K attrs toBe i) (Watched.forEach (msCleanupRoundIndexed K toBe) done)
    msSetAttrsLoopIndexed attrs toBe (done ++ [i]) todo

/-- The indices of `luns_to_be` that `usbg_f_ms_set_attrs` writes to. -/
def askedIds (attrs : MsAttrs) : List ℤ :=
  attrs.luns.zipIdx.map fun li => if 0 ≤ li.1.id then li.1.id else li.2

/-- `usbg_f_ms_set_attrs`.  Both loops that fill `luns_to_be` are one access here, and the loop that
counts the units is with them. -/
def usbgFMsSetAttrsIndexed (attrs : MsAttrs) : Indexed κ Unit := do
  quiet (usbgFMsSetStall K attrs.stall)
  let _ ← getLunMaskIndexed K
  let _ ← getLunMaskIndexed K
  let toBe ← access ((List.range maxLuns).map (fun i : ℕ => some (i : ℤ)) ++ (askedIds attrs).map some)
    (deref (lunsToBe attrs))
  msSetAttrsLoopIndexed K attrs toBe [] (List.range maxLuns)

/-- One round of the loop of `ms_libconfig_import` -/
def msImportLunIndexed (i : ℕ) (node : Setting) : Indexed κ Unit := do
  quiet (require (node.isGroup) .invalidType)
  let f ← access [some (i : ℤ)] self
  (if maxLuns ≤ i then quiet undef
    else Watched.when (i ∉ f.luns) (usbgFMsCreateLunIndexed K i none))
  quiet (msImportLunAttrs K i node)

/-- `ms_libconfig_import` -/
def msLibconfigImportIndexed (root : Setting) : Indexed κ Unit := do
  let stall ← quiet (ofExcept (usbgGetConfigNodeBool root "stall".toList))
  quiet (whenSome (usbgFMsSetStall K) stall)
  match root.getMember "luns".toList with
  | none => quiet (fail .invalidParam)
  | some lunsNode =>
    quiet (require (lunsNode.isList) .invalidType)
    let _ ← getLunMaskIndexed K
    Watched.forEach (fun ni : Setting × ℕ => msImportLunIndexed K ni.2 ni.1) lunsNode.elems.zipIdx

/-! ### The runs are those of the functions -/

lemma run_initLunsIndexed : (initLunsIndexed K).run = initLuns K := by
  have hround : ∀ d : Dirent, (initLunsRoundIndexed d : Indexed κ Unit).run =
      match scanIndex "lun.".toList d.name with
      | .mismatch => pure ()
      | .eof => undef
      | .index id => if 0 ≤ id ∧ id < maxLuns then update (setLun id.toNat) else undef := by
    intro d
    rw [initLunsRoundIndexed]
    cases scanIndex "lun.".toList d.name <;> rfl
  rw [initLunsIndexed, initLuns]
  simp only [run_bind, run_quiet, run_forEach]
  refine bind_congr fun f => bind_congr fun _ => bind_congr fun ds => ?_
  exact congrArg (Prog.forEach · _) (funext hround)

lemma run_getLunMaskIndexed : (getLunMaskIndexed K).run = getLunMask K := by
  rw [getLunMaskIndexed, getLunMask]
  simp only [run_bind, run_quiet, run_when, run_attempt, run_initLunsIndexed, run_pure]
  congr 1
  funext f
  congr 3
  funext r
  cases r <;> rfl

lemma run_usbgFMsCreateLunIndexed (lunId : ℤ) (lattrs : Option MsLunAttrs) :
    (usbgFMsCreateLunIndexed K lunId lattrs).run = usbgFMsCreateLun K lunId lattrs := by
  rw [usbgFMsCreateLunIndexed, usbgFMsCreateLun]
  simp only [run_bind, run_quiet, run_access, run_ite, run_getLunMaskIndexed]

lemma run_usbgFMsRmLunIndexed (lunId : ℤ) : (usbgFMsRmLunIndexed K lunId).run = usbgFMsRmLun K lunId := by
  rw [usbgFMsRmLunIndexed, usbgFMsRmLun]
  simp only [run_bind, run_quiet, run_access, run_ite, run_getLunMaskIndexed]

lemma run_msSetAttrsRoundIndexed (attrs : MsAttrs) (toBe : List ℤ) (i : ℕ) :
    (msSetAttrsRoundIndexed K attrs toBe i).run = msSetAttrsRound K attrs toBe i := by
  rw [msSetAttrsRoundIndexed, msSetAttrsRound]
  simp only [run_bind, run_quiet, run_access, run_ite, run_when, run_usbgFMsCreateLunIndexed,
    run_usbgFMsRmLunIndexed]

lemma run_msCleanupRoundIndexed (toBe : List ℤ) (i : ℕ) :
    (msCleanupRoundIndexed K toBe i).run = msCleanupRound K toBe i := by
  rw [msCleanupRoundIndexed, msCleanupRound]
  simp only [run_bind, run_access, run_when, run_attempt, run_pure, run_usbgFMsRmLunIndexed]

lemma run_msSetAttrsLoopIndexed (attrs : MsAttrs) (toBe : List ℤ) (done todo : List ℕ) :
    (msSetAttrsLoopIndexed K attrs toBe done todo).run = msSetAttrsLoop K attrs toBe done todo := by
  induction todo generalizing done with
  | nil => rfl
  | cons i todo ih =>
    rw [msSetAttrsLoopIndexed, msSetAttrsLoop]
    simp only [run_bind, run_onFail, run_forEach, run_msSetAttrsRoundIndexed, run_msCleanupRoundIndexed, ih]

lemma run_usbgFMsSetAttrsIndexed (attrs : MsAttrs) :
    (usbgFMsSetAttrsIndexed K attrs).run = usbgFMsSetAttrs K attrs := by
  rw [usbgFMsSetAttrsIndexed, usbgFMsSetAttrs]
  simp only [run_bind, run_quiet, run_access, run_getLunMaskIndexed, run_msSetAttrsLoopIndexed]

lemma run_msImportLunIndexed (i : ℕ) (node : Setting) : (msImportLunIndexed K i node).run = msImportLun K i node := by
  rw [msImportLunIndexed, msImportLun]
  simp only [run_bind, run_quiet, run_access, run_ite, run_when, run_usbgFMsCreateLunIndexed]

lemma run_msLibconfigImportIndexed (root : Setting) :
    (msLibconfigImportIndexed K root).run = msLibconfigImport K root := by
  rw [msLibconfigImportIndexed, msLibconfigImport]
  cases root.getMember "luns".toList <;>
    simp only [run_bind, run_quiet, run_forEach, run_getLunMaskIndexed, run_msImportLunIndexed]

end Accesses

/-! ## The names in the directory -/

section Names

variable {M : Machine} {d : Path} {T T' T'' : Tree} {w w' : World Fs} {f : Func} {i : ℕ}
  {s : World Fs × Func}

/-- The numbers that are found in the names of the entries are in the range of the mask. -/
def NamesInRange (d : Path) (T : Tree) : Prop :=
  ∀ name n, T.get (d ++ [name]) = some n → fileSelect ⟨name, n.isLink⟩ = true →
    scanIndex "lun.".toList name = .mismatch ∨ ∃ i < maxLuns, scanIndex "lun.".toList name = .index i

/-- The entries of the directory can be read, at least at some time. -/
def Listable (M : Machine) (d : Path) (T : Tree) : Prop :=
  (d ++ [[]]).Fits ∧ (∃ n, M.fault n (.scandir (d ++ [[]])) = none) ∧ T.IsDir d

/-- Nothing has been put into the directory but units with a number in the range of the mask. -/
structure NamesKept (d : Path) (T T' : Tree) : Prop where
  dir : T'.IsDir d → T.IsDir d
  names : ∀ name n', T'.get (d ++ [name]) = some n' →
    (∃ n, T.get (d ++ [name]) = some n) ∨ ∃ i < maxLuns, name = lunDir i

namespace NamesKept

lemma refl (d : Path) (T : Tree) : NamesKept d T T := ⟨id, fun _ n h => .inl ⟨n, h⟩⟩

lemma of_eq (h : T' = T) : NamesKept d T T' := h ▸ refl d T'

lemma trans (h : NamesKept d T T') (h' : NamesKept d T' T'') : NamesKept d T T'' := by
  refine ⟨fun hdir => h.dir (h'.dir hdir), fun name n'' hn'' => ?_⟩
  rcases h'.names name n'' hn'' with ⟨n', hn'⟩ | hnew
  · exact h.names name n' hn'
  · exact .inr hnew

lemma listable (h : NamesKept d T T') (hl : Listable M d T') : Listable M d T := ⟨hl.1, hl.2.1, h.dir hl.2.2⟩

lemma namesInRange (h : NamesKept d T T') (hnames : NamesInRange d T) : NamesInRange d T' := by
  intro name n' hn' hsel
  rcases h.names name n' hn' with ⟨n, hn⟩ | ⟨i, hi, rfl⟩
  · exact hnames name n hn hsel
  · exact .inr ⟨i, hi, scanIndex_lunDir hi⟩

/-- Contents of files are not looked at. -/
lemma of_contents (h : ∀ q, T'.get q = T.get q ∨ ∃ c c', T.get q = some (.file c) ∧ T'.get q = some (.file c')) :
    NamesKept d T T' := by
  refine ⟨fun hdir => ?_, fun name n' hn' => ?_⟩
  · rw [FileTree.IsDir] at hdir ⊢
    rcases h d with heq | ⟨c, c', -, hc'⟩
    · rwa [heq] at hdir
    · rw [hc'] at hdir
      cases hdir
  · rcases h (d ++ [name]) with heq | ⟨c, -, hc, -⟩
    · exact .inl ⟨n', heq ▸ hn'⟩
    · exact .inl ⟨_, hc⟩

lemma replace {q : Path} {content data : CStr} (hfile : T.get q = some (.file content)) :
    NamesKept d T (T.replace q (.file data)) ∧ NamesKept d (T.replace q (.file data)) T := by
  have hget : ∀ r, (T.replace q (.file data)).get r = T.get r ∨ ∃ c c', T.get r = some (.file c) ∧
      (T.replace q (.file data)).get r = some (.file c') := by
    intro r
    rw [FileTree.get_replace]
    by_cases hr : r = q
    · exact .inr ⟨content, data, hr ▸ hfile, by rw [if_pos hr, hr, hfile]; rfl⟩
    · exact .inl (if_neg hr)
  refine ⟨of_contents hget, of_contents fun r => ?_⟩
  rcases hget r with heq | ⟨c, c', hc, hc'⟩
  · exact .inl heq.symm
  · exact .inr ⟨c', c, hc', hc⟩

lemma newDir (hi : i < maxLuns) (hdir : T.IsDir d) : NamesKept d T (T.addAll (M.newDir (lunAt d i))) := by
  refine ⟨fun _ => hdir, fun name n' hn' => ?_⟩
  rcases name_cases d i name with hname | hnot
  · exact .inr ⟨i, hi, hname⟩
  · rw [get_newDir, find?_newDir_of_not_prefix hnot, Option.map_none, Option.or_none] at hn'
    exact .inl ⟨n', hn'⟩

lemma prune {q : Path} : NamesKept d T (T.prune q) := by
  have hget : ∀ r n, (T.prune q).get r = some n → T.get r = some n := by
    intro r n hn
    rw [FileTree.get_prune] at hn
    split at hn
    · cases hn
    · exact hn
  refine ⟨fun hdir => ?_, fun name n hn => .inl ⟨n, hget _ n hn⟩⟩
  obtain ⟨b, hb⟩ := FileTree.isDir_iff.mp hdir
  exact FileTree.isDir_iff.mpr ⟨b, hget d _ hb⟩

end NamesKept

/-- The mask can be read as often as it has to be. -/
structure MaskGood (M : Machine) (d : Path) (s : World Fs × Func) : Prop where
  dir : s.2.dir = d
  clean : d.Clean
  names : s.2.lunsInitiated = false → Listable M d s.1.tree → NamesInRange d s.1.tree

lemma MaskGood.kept (h : MaskGood M d (w, f)) (hkept : NamesKept d w.tree w'.tree) : MaskGood M d (w', f) :=
  ⟨h.dir, h.clean, fun hinit hl => hkept.namesInRange (h.names hinit (hkept.listable hl))⟩

lemma MaskGood.luns (h : MaskGood M d (w, f)) {f' : Func} (hdir : f'.dir = f.dir)
    (hinit : f'.lunsInitiated = f.lunsInitiated) : MaskGood M d (w, f') :=
  ⟨hdir.trans h.dir, h.clean, fun h' hl => h.names (hinit ▸ h') hl⟩

lemma scandirPath (h : f.dir = d) : f.path ++ [f.name, []] = d ++ [[]] := by
  rw [← h, Func.dir, List.append_assoc]
  rfl

/-! ## The mask -/

lemma initLunsRound_safe {e : Dirent} (h : scanIndex "lun.".toList e.name = .mismatch ∨
    ∃ i < maxLuns, scanIndex "lun.".toList e.name = .index i) (hs : s.1 = w ∧ ∃ luns, s.2 = { f with luns }) :
    Safe IndexInRange (fun _ t => t.1 = w ∧ ∃ luns, t.2 = { f with luns }) (fun _ _ => False)
      (initLunsRoundIndexed e) s := by
  rw [initLunsRoundIndexed]
  rcases h with h | ⟨i, hi, h⟩
  · rw [h]
    exact Safe.quiet hs
  · rw [h]
    have hin : (0 : ℤ) ≤ i ∧ (i : ℤ) < maxLuns := indexInRange_natCast hi
    refine Safe.access (by simpa using indexInRange_natCast hi) ?_
    rw [if_pos hin]
    obtain ⟨hw, luns, hluns⟩ := hs
    refine ⟨hw, i :: luns, ?_⟩
    show setLun i s.2 = _
    rw [hluns]
    rfl

/-- `get_lun_mask` -/
lemma getLunMask_safe (h : MaskGood M d s) :
    Safe IndexInRange (fun _ t => MaskGood M d t ∧ t.1.tree = s.1.tree) (fun _ _ => False)
      (getLunMaskIndexed M.kernel) s := by
  obtain ⟨w, f⟩ := s
  refine Safe.bind (R := fun f' t => f' = f ∧ t = (w, f)) (Safe.quiet ⟨rfl, rfl⟩) ?_
  rintro f' t ⟨rfl, rfl⟩
  refine Safe.bind (R := fun _ t => MaskGood M d t ∧ t.1.tree = w.tree) ?_ fun _ t ht =>
    Safe.bind (R := fun _ u => u = t) (Safe.quiet rfl) fun _ u hu => Safe.quiet (hu ▸ ht)
  -- the directory is listed once, at the first look at the mask
  refine Safe.when (fun hnew => ?_) fun _ => ⟨h, rfl⟩
  have hinit : f'.lunsInitiated = false := by simpa using hnew
  refine Safe.bind (R := fun r t => t.1.tree = w.tree ∧ ∃ luns, t.2 = { f' with luns }) (Safe.attempt ?_) ?_
  · refine Safe.bind (R := fun f₁ t => f₁ = f' ∧ t = (w, f')) (Safe.quiet ⟨rfl, rfl⟩) ?_
    rintro f₁ t ⟨rfl, rfl⟩
    rw [scandirPath h.dir]
    refine Safe.bind (R := fun _ t => (d ++ [[]]).Fits ∧ t = (w, f₁)) (Safe.quiet
      (Ends.require (fun hfits => ⟨hfits, rfl⟩) fun _ => ⟨rfl, f₁.luns, rfl⟩)) ?_
    rintro - t ⟨hfits, rfl⟩
    refine Safe.bind (R := fun (ds : List Dirent) t => (t.1.tree = w.tree ∧ ∃ luns, t.2 = { f₁ with luns }) ∧
      ∀ e ∈ ds.filter fileSelect, scanIndex "lun.".toList e.name = .mismatch ∨
        ∃ i < maxLuns, scanIndex "lun.".toList e.name = .index i) (Safe.quiet (ends_io ?_)) ?_
    · have hresolve : (d ++ [[]]).resolve = d := by rw [h.clean.resolve_append]; simp
      refine ends_numberedCall (c := .scandir (d ++ [[]])) (fun ds w' hf hexec _ => ?_)
        fun e w' _ ht _ => ⟨ht, f₁.luns, rfl⟩
      obtain ⟨hread, ht⟩ := exec_scandir.mp hexec
      obtain ⟨hdir, rfl⟩ := readDir_eq_ok.mp hread
      rw [hresolve] at hdir
      refine ⟨⟨ht, f₁.luns, rfl⟩, fun e he => ?_⟩
      obtain ⟨hmem, hsel⟩ := List.mem_filter.mp he
      obtain ⟨⟨name, n⟩, hn, rfl⟩ := List.mem_map.mp hmem
      rw [hresolve] at hn
      exact h.names hinit ⟨hfits, ⟨_, hf⟩, hdir⟩ name n (FileTree.mem_children.mp hn) hsel
    · rintro ds ⟨w', f₂⟩ ⟨⟨ht, luns, rfl⟩, hds⟩
      refine (Safe.forEach (I := fun t => t.1 = w' ∧ ∃ luns, t.2 = { f₁ with luns }) (E := fun _ _ => False)
        (fun e he t hI => initLunsRound_safe (hds e he) hI) ⟨rfl, luns, rfl⟩).mono ?_ fun _ _ hF => hF.elim
      rintro - t ⟨rfl, hluns⟩
      exact ⟨ht, hluns⟩
  · rintro (e | _) ⟨w', f₂⟩ ⟨ht, luns, rfl⟩
    · exact Safe.quiet ⟨(h.kept (.of_eq ht)).luns rfl rfl, ht⟩
    · exact Safe.quiet ⟨⟨h.dir, h.clean, fun hfalse => Bool.noConfusion hfalse⟩, ht⟩

/-! ## The operations -/

/-- A function that only works on the world, and keeps the names. -/
lemma MaskGood.io {α : Type} {m : Io Fs α} (h : MaskGood M d s)
    (hm : Ends (fun _ w' => NamesKept d s.1.tree w'.tree) (fun _ w' => NamesKept d s.1.tree w'.tree) True (m s.1)) :
    Ends (fun _ => MaskGood M d) (fun _ => MaskGood M d) True (Libusbgx.io m s) :=
  ends_io (hm.mono (fun _ _ hk => h.kept hk) fun _ _ hk => h.kept hk)

lemma usbgFMsSetStall_good {stall : Bool} (h : MaskGood M d s) :
    Ends (fun _ => MaskGood M d) (fun _ => MaskGood M d) True (usbgFMsSetStall M.kernel stall s) := by
  rw [usbgFMsSetStall, self_bind_apply]
  refine h.io (ends_usbgWriteBuf (fun w' hfile ht _ => ?_) fun _ _ ht _ => .of_eq ht)
  obtain ⟨content, hcontent⟩ := hfile
  exact ht ▸ (NamesKept.replace hcontent).1

lemma usbgFMsSetLunAttrVal_good {id : ℤ} {a : Attr} {val : AttrVal} (h : MaskGood M d s) :
    Ends (fun _ => MaskGood M d) (fun _ => MaskGood M d) True (usbgFMsSetLunAttrVal M.kernel id a val s) := by
  rw [usbgFMsSetLunAttrVal, self_bind_apply]
  refine Ends.require_bind (fun _ => h.io (ends_set (fun data w' hfile ht => ?_) (fun _ _ ht => .of_eq ht)
    fun _ => trivial)) fun _ => h
  obtain ⟨content, hcontent⟩ := hfile
  exact ht ▸ (NamesKept.replace hcontent).1

lemma usbgFMsSetLunAttrs_good {id : ℤ} {l : MsLunAttrs} (h : MaskGood M d s) :
    Ends (fun _ => MaskGood M d) (fun _ => MaskGood M d) True (usbgFMsSetLunAttrs M.kernel id l s) :=
  Ends.ite (fun _ => Ends.forEach (fun _ _ _ ht => usbgFMsSetLunAttrVal_good ht) h) fun _ => trivial

lemma msImportLunAttrs_good {id : ℤ} {root : Setting} (h : MaskGood M d s) :
    Ends (fun _ => MaskGood M d) (fun _ => MaskGood M d) True (msImportLunAttrs M.kernel id root s) := by
  refine Ends.forEach (fun a _ t ht => ?_) h
  refine Ends.bind (R := fun _ t => MaskGood M d t) ?_ fun found t ht => ?_
  · cases a.kind.imprt root a.name <;> exact ht
  · cases found with
    | none => exact ht
    | some val => exact usbgFMsSetLunAttrVal_good ht

/-- The beginning of the two functions that are given the number of a unit -/
lemma lunId_safe {β : Type} {Q : β → World Fs × Func → Prop} {E : UsbgError → World Fs × Func → Prop}
    {k : List ℕ → Indexed Fs β} {k' : List ℕ → Indexed Fs β} (h : MaskGood M d s)
    (hE : ∀ e, E e s) (hk : ∀ luns t, MaskGood M d t → Safe IndexInRange Q E (k' luns) t) :
    Safe IndexInRange Q E (do
      quiet (require ((i : ℤ) < maxLuns) .invalidParam)
      let luns ← getLunMaskIndexed M.kernel
      if (i : ℤ) < 0 then k luns else k' luns) s := by
  refine Safe.bind (R := fun _ t => t = s) (Safe.quiet (Ends.require (fun _ => rfl) fun _ => hE _)) ?_
  rintro - t rfl
  refine Safe.bind ((getLunMask_safe h).mono (fun _ _ h => h) fun _ _ hF => hF.elim) fun luns t ht => ?_
  exact Safe.ite (fun hneg => absurd hneg (by omega)) fun _ => hk luns t ht.1

lemma usbgFMsCreateLun_safe {l : Option MsLunAttrs} (hi : i < maxLuns) (h : MaskGood M d s) :
    Safe IndexInRange (fun _ => MaskGood M d) (fun _ => MaskGood M d)
      (usbgFMsCreateLunIndexed M.kernel i l) s := by
  have hin : ∀ a ∈ [some (i : ℤ)], IndexInRange a := by simpa using indexInRange_natCast hi
  refine lunId_safe h (fun _ => h) fun luns t ht => ?_
  refine Safe.bind (R := fun _ u => u = t) (Safe.access hin (Ends.require (fun _ => rfl) fun _ => ht)) ?_
  rintro - t rfl
  refine Safe.bind (R := fun f' u => f' = t.2 ∧ u = t) (Safe.quiet ⟨rfl, rfl⟩) ?_
  rintro f' u ⟨rfl, rfl⟩
  refine Safe.bind (R := fun _ v => v = u) (Safe.quiet (Ends.require (fun _ => rfl) fun _ => ht)) ?_
  rintro - u rfl
  have hresolve := resolve_lunPath ht.dir ht.clean (i : ℤ)
  refine Safe.bind (R := fun _ => MaskGood M d) (Safe.quiet (ht.io (ends_mkdir (fun w' hmkdir _ => ?_)
    fun _ _ ht _ => .of_eq ht))) fun _ v hv => ?_
  · rw [hresolve] at hmkdir
    obtain ⟨-, hdir, -, heq⟩ := mkdir_eq_ok.mp hmkdir
    rw [List.dropLast_concat] at hdir
    exact heq ▸ .newDir hi hdir
  refine Safe.bind (R := fun _ => MaskGood M d) (Safe.quiet ?_) fun _ v hv => Safe.access hin (hv.luns rfl rfl)
  cases l with
  | none => exact hv
  | some l =>
    refine Ends.onFail (F := fun _ => MaskGood M d) (usbgFMsSetLunAttrs_good hv) fun _ x hx => hx.io ?_
    refine ends_tryCall (fun _ w' hexec => ?_) fun _ _ ht => .of_eq ht
    obtain ⟨-, -, -, heq⟩ := rmdir_eq_ok.mp (exec_rmdir.mp hexec)
    exact heq ▸ .prune

lemma usbgFMsRmLun_safe (hi : i < maxLuns) (h : MaskGood M d s) :
    Safe IndexInRange (fun _ => MaskGood M d) (fun _ => MaskGood M d) (usbgFMsRmLunIndexed M.kernel i) s := by
  have hin : ∀ a ∈ [some (i : ℤ)], IndexInRange a := by simpa using indexInRange_natCast hi
  refine lunId_safe h (fun _ => h) fun luns t ht => ?_
  refine Safe.bind (R := fun _ u => u = t) (Safe.access hin (Ends.require (fun _ => rfl) fun _ => ht)) ?_
  rintro - t rfl
  refine Safe.bind (R := fun f' u => f' = t.2 ∧ u = t) (Safe.quiet ⟨rfl, rfl⟩) ?_
  rintro f' u ⟨rfl, rfl⟩
  refine Safe.bind (R := fun _ v => v = u) (Safe.quiet (Ends.require (fun _ => rfl) fun _ => ht)) ?_
  rintro - u rfl
  refine Safe.bind (R := fun _ => MaskGood M d) (Safe.quiet (ht.io (ends_rmdir (fun w' hrmdir _ => ?_)
    fun _ _ _ ht _ => .of_eq ht))) fun _ v hv => Safe.access hin (hv.luns rfl rfl)
  obtain ⟨-, -, -, heq⟩ := rmdir_eq_ok.mp hrmdir
  exact heq ▸ .prune

lemma deref_safe {α : Type} {o : Option α} (h : MaskGood M d s) :
    Safe IndexInRange (fun _ => MaskGood M d) (fun _ => MaskGood M d) (quiet (deref o) : Indexed Fs α) s := by
  cases o with
  | none => exact Safe.quiet trivial
  | some a => exact Safe.quiet h

lemma msSetAttrsRound_safe {attrs : MsAttrs} {toBe : List ℤ} (hi : i < maxLuns) (h : MaskGood M d s) :
    Safe IndexInRange (fun _ => MaskGood M d) (fun _ => MaskGood M d)
      (msSetAttrsRoundIndexed M.kernel attrs toBe i) s := by
  have hin : ∀ a ∈ [some (i : ℤ)], IndexInRange a := by simpa using indexInRange_natCast hi
  refine Safe.bind (R := fun _ => MaskGood M d) (Safe.access hin h) fun f t ht => ?_
  refine Safe.ite (fun _ => Safe.ite (fun _ => ?_) fun _ => usbgFMsRmLun_safe hi ht) fun _ =>
    Safe.when (fun _ => ?_) fun _ => ht
  · exact Safe.bind (deref_safe ht) fun _ _ hu => Safe.bind (deref_safe hu) fun _ _ hv =>
      Safe.quiet (usbgFMsSetLunAttrs_good hv)
  · exact Safe.bind (deref_safe ht) fun _ _ hu => usbgFMsCreateLun_safe hi hu

lemma msCleanupRound_safe {toBe : List ℤ} (hi : i < maxLuns) (h : MaskGood M d s) :
    Safe IndexInRange (fun _ => MaskGood M d) (fun _ => MaskGood M d) (msCleanupRoundIndexed M.kernel toBe i) s := by
  have hin : ∀ a ∈ [some (i : ℤ)], IndexInRange a := by simpa using indexInRange_natCast hi
  refine Safe.bind (R := fun _ => MaskGood M d) (Safe.access hin h) fun f t ht => ?_
  refine Safe.when (fun _ => ?_) fun _ => ht
  exact Safe.bind (R := fun _ => MaskGood M d) (Safe.attempt (usbgFMsRmLun_safe hi ht)) fun _ _ hu => Safe.quiet hu

/-- The indices in the loops of `usbg_f_ms_set_attrs` are those of the loops. -/
lemma msSetAttrsLoop_safe {attrs : MsAttrs} {toBe : List ℤ} {done todo : List ℕ}
    (hdone : ∀ i ∈ done, i < maxLuns) (htodo : ∀ i ∈ todo, i < maxLuns) (h : MaskGood M d s) :
    Safe IndexInRange (fun _ => MaskGood M d) (fun _ => MaskGood M d)
      (msSetAttrsLoopIndexed M.kernel attrs toBe done todo) s := by
  induction todo generalizing done s with
  | nil => exact Safe.quiet h
  | cons i todo ih =>
    have hi : i < maxLuns := htodo i (List.mem_cons_self ..)
    refine Safe.bind (R := fun _ => MaskGood M d) (Safe.onFail (F := fun _ => MaskGood M d)
      (msSetAttrsRound_safe hi h) fun _ t ht => Safe.forEach (fun j hj u hu => msCleanupRound_safe (hdone j hj) hu) ht)
      fun _ t ht => ih (fun j hj => ?_) (fun j hj => htodo j (List.mem_cons_of_mem _ hj)) ht
    rcases List.mem_append.mp hj with hj | hj
    · exact hdone j hj
    · exact List.mem_singleton.mp hj ▸ hi

lemma msImportLun_safe {node : Setting} (hi : i < maxLuns) (h : MaskGood M d s) :
    Safe IndexInRange (fun _ => MaskGood M d) (fun _ => MaskGood M d) (msImportLunIndexed M.kernel i node) s := by
  have hin : ∀ a ∈ [some (i : ℤ)], IndexInRange a := by simpa using indexInRange_natCast hi
  refine Safe.bind (R := fun _ => MaskGood M d) (Safe.quiet (Ends.require (fun _ => h) fun _ => h)) fun _ t ht => ?_
  refine Safe.bind (R := fun _ => MaskGood M d) (Safe.access hin ht) fun f u hu => ?_
  refine Safe.bind (R := fun _ => MaskGood M d) ?_ fun _ v hv => Safe.quiet (msImportLunAttrs_good hv)
  exact Safe.ite (fun hle => absurd hi (by omega)) fun _ =>
    Safe.when (fun _ => usbgFMsCreateLun_safe hi hu) fun _ => hu

/-! ## What allowed accesses say -/

/-- A round of `init_luns` with allowed accesses returns. -/
lemma initLunsRound_allowed {κ : Type} {e : Dirent} {s : World κ × Func}
    (h : Allowed IndexInRange (initLunsRoundIndexed e) s) :
    (scanIndex "lun.".toList e.name = .mismatch ∨ ∃ i < maxLuns, scanIndex "lun.".toList e.name = .index i) ∧
      ∃ t, (initLunsRoundIndexed e).run s = (.ok (), t) := by
  rw [initLunsRoundIndexed] at h ⊢
  cases hscan : scanIndex "lun.".toList e.name with
  | mismatch => exact ⟨.inl rfl, s, rfl⟩
  | eof =>
    rw [hscan] at h
    exact (allowed_access.mp h none (by simp)).elim
  | index id =>
    rw [hscan] at h
    have hin : 0 ≤ id ∧ id < maxLuns := allowed_access.mp h (some id) (by simp)
    obtain ⟨i, rfl⟩ := Int.eq_ofNat_of_zero_le hin.1
    refine ⟨.inr ⟨i, by exact_mod_cast hin.2, rfl⟩, (s.1, setLun i s.2), ?_⟩
    dsimp only
    rw [run_access, if_pos hin]
    rfl

lemma faithful_initLuns {κ : Type} (K : Kernel κ) : Faithful IndexInRange (initLunsIndexed K) := by
  refine Faithful.bind (Faithful.quiet fun _ => by simp) fun f => ?_
  refine Faithful.bind (Faithful.quiet (Defined.require _)) fun _ => ?_
  refine Faithful.bind (Faithful.quiet fun s => defined_call _ s.1) fun ds => Faithful.forEach fun e _ s hs => ?_
  obtain ⟨-, t, hrun⟩ := initLunsRound_allowed hs
  rw [hrun]
  simp

lemma faithful_getLunMask {κ : Type} (K : Kernel κ) : Faithful IndexInRange (getLunMaskIndexed K) := by
  refine Faithful.bind (Faithful.quiet fun _ => by simp) fun f => ?_
  refine Faithful.bind (Faithful.when fun _ => ?_) fun _ => ?_
  · refine Faithful.bind (Faithful.attempt (faithful_initLuns K)) fun r => ?_
    cases r with
    | ok _ => exact Faithful.quiet fun _ => by simp
    | error e => exact Faithful.quiet (Defined.pure ())
  · exact Faithful.bind (Faithful.quiet fun _ => by simp) fun _ => Faithful.quiet (Defined.pure _)

/-- The mask is returned where the accesses are allowed. -/
lemma getLunMask_ok {κ : Type} {K : Kernel κ} {s : World κ × Func}
    (h : Allowed IndexInRange (getLunMaskIndexed K) s) : ∃ luns t, (getLunMaskIndexed K).run s = (.ok luns, t) := by
  have hends : Ends (fun _ _ => True) (fun _ _ => False) True ((getLunMaskIndexed K).run s) := by
    rw [run_getLunMaskIndexed, getLunMask, self_bind_apply]
    refine Ends.bind (R := fun _ _ => True) (Ends.when (fun _ => ?_) fun _ => trivial) fun _ _ _ => trivial
    refine Ends.bind (R := fun _ _ => True) (Ends.attempt (Ends.intro (fun _ _ _ => trivial) (fun _ _ _ => trivial)
      fun _ _ => trivial)) fun r _ _ => ?_
    cases r <;> exact trivial
  have hdef := faithful_getLunMask K s h
  rcases hrun : (getLunMaskIndexed K).run s with ⟨luns | e | _, t⟩
  · exact ⟨luns, t, rfl⟩
  · rw [hrun] at hends
    exact hends.elim
  · rw [hrun] at hdef
    exact absurd rfl hdef

/-- The kernel answers the scan of the directory the same way each time. -/
def SteadyScan (M : Machine) (d : Path) : Prop :=
  ∀ m n, M.fault m (.scandir (d ++ [[]])) = M.fault n (.scandir (d ++ [[]]))

/-- When the mask has been read with allowed accesses, the numbers in the names are in range. -/
lemma namesInRange_of_allowed (hd : f.dir = d) (hclean : d.Clean) (hsteady : SteadyScan M d)
    (hinit : f.lunsInitiated = false) (hl : Listable M d w.tree)
    (h : Allowed IndexInRange (getLunMaskIndexed M.kernel) (w, f)) : NamesInRange d w.tree := by
  obtain ⟨hfits, ⟨m, hm⟩, hdir⟩ := hl
  have hresolve : (d ++ [[]]).resolve = d := by rw [hclean.resolve_append]; simp
  -- down to the loop over the entries
  have hread := (allowed_bind.mp ((allowed_bind.mp h).2 f (w, f) rfl)).1
  rw [Watched.when, if_pos (by simp [hinit])] at hread
  have hinits : Allowed IndexInRange (initLunsIndexed M.kernel) (w, f) := (allowed_bind.mp hread).1
  have hscan := (allowed_bind.mp hinits).2 f (w, f) rfl
  rw [scandirPath hd] at hscan
  replace hscan := (allowed_bind.mp hscan).2 () (w, f) (by rw [run_quiet, require_of hfits]; rfl)
  obtain ⟨w', hcall⟩ : ∃ w', io (call M.kernel (.scandir (d ++ [[]]))) (w, f) =
      (.ok ((w.tree.children d).map fun e => { name := e.1, isLink := e.2.isLink }), (w', f)) := by
    have hexec : M.exec (.scandir (d ++ [[]])) w.tree =
        .ok ((w.tree.children d).map fun e => { name := e.1, isLink := e.2.isLink }, w.tree) :=
      exec_scandir.mpr ⟨readDir_eq_ok.mpr (by rw [hresolve]; exact ⟨hdir, rfl⟩), rfl⟩
    obtain ⟨w', hw'⟩ := numberedCall_ok (hsteady _ m ▸ hm) hexec
    exact ⟨w', io_ok hw'⟩
  have hloop := (allowed_bind.mp hscan).2 _ _ hcall
  intro name n hn hsel
  have hmem : (⟨name, n.isLink⟩ : Dirent) ∈ ((w.tree.children d).map fun e =>
      ({ name := e.1, isLink := e.2.isLink } : Dirent)).filter fileSelect :=
    List.mem_filter.mpr ⟨List.mem_map.mpr ⟨(name, n), FileTree.mem_children.mpr hn, rfl⟩, hsel⟩
  obtain ⟨s', hround⟩ := allowed_forEach (fun e _ t ht => (initLunsRound_allowed ht).2) hloop _ hmem
  exact (initLunsRound_allowed hround).1

end Names

/-! ## The calls -/

/-- A call of the library with which numbers of units come in. -/
inductive LunsCall where
  | createLun (lunId : ℤ) (lattrs : Option MsLunAttrs)
  | rmLun (lunId : ℤ)
  | setAttrs (attrs : MsAttrs)
  | importLuns (root : Setting)

namespace LunsCall

variable {κ : Type} (K : Kernel κ)

/-- What the call does. -/
def run : LunsCall → On κ Func Unit
  | .createLun lunId lattrs => usbgFMsCreateLun K lunId lattrs
  | .rmLun lunId => usbgFMsRmLun K lunId
  | .setAttrs attrs => usbgFMsSetAttrs K attrs
  | .importLuns root => msLibconfigImport K root

@[inherit_doc run]
def indexed : LunsCall → Indexed κ Unit
  | .createLun lunId lattrs => usbgFMsCreateLunIndexed K lunId lattrs
  | .rmLun lunId => usbgFMsRmLunIndexed K lunId
  | .setAttrs attrs => usbgFMsSetAttrsIndexed K attrs
  | .importLuns root => msLibconfigImportIndexed K root

lemma run_indexed (c : LunsCall) : (c.indexed K).run = c.run K := by
  cases c with
  | createLun lunId lattrs => exact run_usbgFMsCreateLunIndexed K lunId lattrs
  | rmLun lunId => exact run_usbgFMsRmLunIndexed K lunId
  | setAttrs attrs => exact run_usbgFMsSetAttrsIndexed K attrs
  | importLuns root => exact run_msLibconfigImportIndexed K root

end LunsCall

/-- The number of units of a scheme. -/
def lunCount (root : Setting) : ℕ := ((root.getMember "luns".toList).map fun luns => luns.elems.length).getD 0

/-- The call asks for a unit that cannot be. -/
def LunsCall.OutOfRange : LunsCall → Prop
  | .createLun lunId _ | .rmLun lunId => lunId < 0 ∨ maxLuns ≤ lunId
  | .setAttrs attrs => ∃ id ∈ askedIds attrs, maxLuns ≤ id
  | .importLuns root => maxLuns < lunCount root

/-- All accesses have an index that is set and in range, and requests out of range are answered with an
error code. -/
structure IndexSafe (K : Kernel Fs) (c : LunsCall) (s : World Fs × Func) : Prop where
  inRange : ∀ a ∈ (c.indexed K).trace s, IndexInRange a
  answered : c.OutOfRange → ∃ e, (c.run K s).1 = .fail e

/-- Where the mask has still to be read, the numbers in the names are in its range. -/
def MaskReadable (M : Machine) (w : World Fs) (f : Func) : Prop :=
  f.lunsInitiated = false → Listable M f.dir w.tree → NamesInRange f.dir w.tree

/-- The stall attribute can be written now. -/
def StallWritable (M : Machine) (w : World Fs) (f : Func) (stall : Bool) : Prop :=
  (f.path ++ [f.name, "stall".toList]).Fits ∧
    M.fault w.sys.log.length (.write (f.path ++ [f.name, "stall".toList])
      (printDec (if stall then 1 else 0) ++ ['\n'])) = none ∧
    ∃ content, w.tree.get (f.path ++ [f.name, "stall".toList]).resolve = some (.file content)

/-- The numbers that come in with the call are in range, or are looked at first. -/
def IndicesOk (M : Machine) (w : World Fs) (f : Func) : LunsCall → Prop
  | .createLun lunId _ | .rmLun lunId => maxLuns ≤ lunId ∨ 0 ≤ lunId ∧ MaskReadable M w f
  | .setAttrs attrs =>
      StallWritable M w f attrs.stall → MaskReadable M w f ∧ ∀ id ∈ askedIds attrs, id < maxLuns
  | .importLuns root => MaskReadable M w f ∧ lunCount root ≤ maxLuns

section Calls

variable {M : Machine} {d : Path} {T T' : Tree} {w : World Fs} {f : Func} {s : World Fs × Func}

/-- `usbg_f_ms_set_stall` -/
lemma usbgFMsSetStall_ends {stall : Bool} :
    Ends (fun _ t => t.2 = f ∧ StallWritable M w f stall ∧ NamesKept d w.tree t.1.tree ∧ NamesKept d t.1.tree w.tree)
      (fun _ _ => ¬ StallWritable M w f stall) False (usbgFMsSetStall M.kernel stall (w, f)) := by
  rw [usbgFMsSetStall, self_bind_apply]
  refine ends_io (Ends.require_bind (fun hfits => ?_) fun hfits h => hfits h.1)
  refine ends_numberedCall (c := .write _ _) (fun _ w' hf hexec _ => ?_) fun e w' hwhy _ _ h => ?_
  · obtain ⟨⟨content, hcontent⟩, ht⟩ := writeFile_eq_ok.mp (exec_write.mp hexec)
    exact ⟨rfl, ⟨hfits, hf, content, hcontent⟩, ht ▸ NamesKept.replace hcontent⟩
  · obtain ⟨errno, herr⟩ := hwhy h.2.1
    obtain ⟨content, hcontent⟩ := h.2.2
    have hok : M.exec (.write (f.path ++ [f.name, "stall".toList]) (printDec (if stall then 1 else 0) ++ ['\n'])) w.tree =
        .ok ((), w.tree.replace _ _) := exec_write.mpr (writeFile_eq_ok.mpr ⟨⟨content, hcontent⟩, rfl⟩)
    rw [hok] at herr
    cases herr

lemma MaskReadable.good (h : MaskReadable M w f) (hclean : f.dir.Clean) : MaskGood M f.dir (w, f) := ⟨rfl, hclean, h⟩

/-- The mask was read with allowed accesses, maybe after something else. -/
lemma maskReadable_of_allowed {w' : World Fs} (hclean : f.dir.Clean) (hsteady : SteadyScan M f.dir)
    (hback : NamesKept f.dir w'.tree w.tree)
    (h : Allowed IndexInRange (getLunMaskIndexed M.kernel) (w', f)) : MaskReadable M w f :=
  fun hinit hl => hback.namesInRange (namesInRange_of_allowed rfl hclean hsteady hinit (hback.listable hl) h)

/-- A call that is turned down before it uses an index is safe. -/
lemma indexSafe_of_fail {K : Kernel Fs} {c : LunsCall} {α : Type} {m : On Fs Func α} {k : α → Indexed Fs Unit}
    {e : UsbgError} {t : World Fs × Func} (hm : m s = (.fail e, t)) (hc : c.indexed K = (quiet m >>= k)) :
    IndexSafe K c s := by
  have hfail := allowed_of_fail (P := IndexInRange) (f := k) hm
  rw [← hc, LunsCall.run_indexed] at hfail
  exact ⟨hfail.1, fun _ => ⟨e, by rw [hfail.2]⟩⟩

lemma require_fail {lunId : ℤ} (hid : (maxLuns : ℤ) ≤ lunId) :
    require (lunId < maxLuns) .invalidParam s = (.fail UsbgError.invalidParam, s) := by
  rw [require_of_not (by omega)]
  rfl

/-- The accesses of `usbg_f_ms_create_lun` and `usbg_f_ms_rm_lun` up to the first that uses the number -/
lemma lunId_allowed {lunId : ℤ} {k k' : List ℕ → Indexed Fs Unit} (hid : lunId < maxLuns)
    (hk : ∀ luns t, Allowed IndexInRange (k luns) t → 0 ≤ lunId)
    (h : Allowed IndexInRange (do
      quiet (require (lunId < maxLuns) .invalidParam)
      let luns ← getLunMaskIndexed M.kernel
      if lunId < 0 then k luns else k' luns) (w, f)) :
    0 ≤ lunId ∧ Allowed IndexInRange (getLunMaskIndexed M.kernel) (w, f) := by
  replace h := (allowed_bind.mp h).2 () (w, f) (by rw [run_quiet, require_of hid]; rfl)
  obtain ⟨hmask, hrest⟩ := allowed_bind.mp h
  obtain ⟨luns, t, hrun⟩ := getLunMask_ok hmask
  refine ⟨?_, hmask⟩
  by_contra hneg
  have hneg' : lunId < 0 := by omega
  replace hrest := hrest luns t hrun
  rw [if_pos hneg'] at hrest
  exact hneg (hk luns t hrest)

lemma msImportLunAttrs_defined (id : ℤ) (root : Setting) (s : World Fs × Func) :
    Ends (fun _ _ => True) (fun _ _ => True) False (msImportLunAttrs M.kernel id root s) := by
  refine Ends.forEach (I := fun _ => True) (fun a _ t _ => ?_) trivial
  refine Ends.bind (R := fun found _ => a.kind.imprt root a.name = .ok found) ?_ fun found u hfound => ?_
  · cases himport : a.kind.imprt root a.name with
    | error e => exact trivial
    | ok found => exact rfl
  · cases found with
    | none => exact trivial
    | some val =>
      show Ends _ _ _ (usbgFMsSetLunAttrVal M.kernel id a val u)
      rw [usbgFMsSetLunAttrVal, self_bind_apply]
      exact Ends.require_bind (fun _ => ends_io (ends_set (fun _ _ _ _ => trivial) (fun _ _ _ => trivial)
        fun hnot => hnot (AttrKind.fed_of_imprt hfound))) fun _ => trivial

lemma faithful_usbgFMsCreateLun {κ : Type} (K : Kernel κ) (i : ℕ) :
    Faithful IndexInRange (usbgFMsCreateLunIndexed K i none) := by
  refine Faithful.bind (Faithful.quiet (Defined.require _)) fun _ => ?_
  refine Faithful.bind (faithful_getLunMask K) fun luns => Faithful.ite (fun hneg => absurd hneg (by omega)) fun _ => ?_
  refine Faithful.bind (Faithful.access (Defined.require _)) fun _ => ?_
  refine Faithful.bind (Faithful.quiet fun _ => by simp) fun f => ?_
  refine Faithful.bind (Faithful.quiet (Defined.require _)) fun _ => ?_
  refine Faithful.bind (Faithful.quiet fun s => defined_call _ s.1) fun _ => ?_
  exact Faithful.bind (Faithful.quiet (Defined.pure ())) fun _ => Faithful.access fun _ => by simp

lemma faithful_msImportLun (i : ℕ) (node : Setting) :
    Faithful IndexInRange (msImportLunIndexed M.kernel i node) := by
  by_cases hi : i < maxLuns
  · refine Faithful.bind (Faithful.quiet (Defined.require _)) fun _ => ?_
    refine Faithful.bind (Faithful.access fun _ => by simp) fun f => ?_
    refine Faithful.bind ?_ fun _ => Faithful.quiet fun s => (msImportLunAttrs_defined i node s).defined
    exact Faithful.ite (fun hle => absurd hi (by omega)) fun _ => Faithful.when fun _ => faithful_usbgFMsCreateLun _ i
  · intro s hs
    by_cases hgroup : node.isGroup = true
    · have hrest := (allowed_bind.mp hs).2 () s (by rw [run_quiet, require_of hgroup]; rfl)
      have hin := allowed_access.mp (allowed_bind.mp hrest).1 (some (i : ℤ)) (by simp)
      exact absurd hin.2 (by exact_mod_cast hi)
    · have hfail : require (node.isGroup = true) .invalidType s = (.fail UsbgError.invalidType, s) := by
        rw [require_of_not hgroup]
        rfl
      rw [msImportLunIndexed, run_bind, run_quiet, bind_fail hfail]
      simp

/-- An import has undefined behaviour only where it uses an index that is not in range. -/
lemma faithful_msLibconfigImport (root : Setting) :
    Faithful IndexInRange (msLibconfigImportIndexed M.kernel root) := by
  refine Faithful.bind (Faithful.quiet (Defined.ofExcept _)) fun stall => ?_
  refine Faithful.bind (Faithful.quiet (Defined.whenSome fun b _ s =>
    (usbgFMsSetStall_ends (d := s.2.dir)).defined)) fun _ => ?_
  cases root.getMember "luns".toList with
  | none => exact Faithful.quiet (Defined.fail _)
  | some luns =>
    refine Faithful.bind (Faithful.quiet (Defined.require _)) fun _ => ?_
    exact Faithful.bind (faithful_getLunMask _) fun _ => Faithful.forEach fun ni _ => faithful_msImportLun ni.2 ni.1

lemma indexInRange_asked {attrs : MsAttrs} (h : ∀ id ∈ askedIds attrs, id < maxLuns) :
    ∀ a ∈ (List.range maxLuns).map (fun i : ℕ => some (i : ℤ)) ++ (askedIds attrs).map some, IndexInRange a := by
  have hpos : ∀ id ∈ askedIds attrs, 0 ≤ id := by
    intro id hid
    obtain ⟨li, -, rfl⟩ := List.mem_map.mp hid
    split <;> omega
  intro a ha
  rcases List.mem_append.mp ha with ha | ha
  · obtain ⟨i, hi, rfl⟩ := List.mem_map.mp ha
    exact indexInRange_natCast (List.mem_range.mp hi)
  · obtain ⟨id, hid, rfl⟩ := List.mem_map.mp ha
    exact ⟨hpos id hid, h id hid⟩

/-- The accesses are in range if the numbers that come in are. -/
lemma IndicesOk.safe (hclean : f.dir.Clean) {c : LunsCall} (h : IndicesOk M w f c) :
    IndexSafe M.kernel c (w, f) := by
  have hmask : ∀ {t}, MaskGood M f.dir t → Safe IndexInRange (fun _ => MaskGood M f.dir) (fun _ => MaskGood M f.dir)
      (getLunMaskIndexed M.kernel) t := fun ht =>
    (getLunMask_safe ht).mono (fun _ _ h => h.1) fun _ _ hF => hF.elim
  cases c with
  | createLun lunId lattrs =>
    -- a number from 16 on is refused before it is used as an index
    rcases le_or_gt (maxLuns : ℤ) lunId with hle | hlt
    · exact indexSafe_of_fail (require_fail hle) rfl
    · obtain ⟨hpos, hgood⟩ := h.resolve_left (by omega)
      obtain ⟨i, rfl⟩ := Int.eq_ofNat_of_zero_le hpos
      refine ⟨(usbgFMsCreateLun_safe (by exact_mod_cast hlt) (hgood.good hclean)).1, ?_⟩
      rintro (hneg | hle) <;> omega
  | rmLun lunId =>
    rcases le_or_gt (maxLuns : ℤ) lunId with hle | hlt
    · exact indexSafe_of_fail (require_fail hle) rfl
    · obtain ⟨hpos, hgood⟩ := h.resolve_left (by omega)
      obtain ⟨i, rfl⟩ := Int.eq_ofNat_of_zero_le hpos
      refine ⟨(usbgFMsRmLun_safe (by exact_mod_cast hlt) (hgood.good hclean)).1, ?_⟩
      rintro (hneg | hle) <;> omega
  | setAttrs attrs =>
    have hends : Ends _ _ _ (usbgFMsSetStall M.kernel attrs.stall (w, f)) := usbgFMsSetStall_ends (d := f.dir)
    -- if stall cannot be written, no unit is looked at
    rcases hrun : usbgFMsSetStall M.kernel attrs.stall (w, f) with ⟨_ | e | _, t⟩
    · rw [hrun] at hends
      obtain ⟨hgood, hids⟩ := h hends.2.1
      refine ⟨?_, fun hbeyond => hbeyond.elim fun id h => absurd (hids id h.1) (by omega)⟩
      have hsafe : Safe IndexInRange (fun _ => MaskGood M f.dir) (fun _ => MaskGood M f.dir)
          (usbgFMsSetAttrsIndexed M.kernel attrs) (w, f) := by
        refine Safe.bind (Safe.quiet (usbgFMsSetStall_good (hgood.good hclean))) fun _ t ht => ?_
        refine Safe.bind (hmask ht) fun _ t ht => Safe.bind (hmask ht) fun _ t ht => ?_
        refine Safe.bind (R := fun _ => MaskGood M f.dir) (Safe.access (indexInRange_asked hids) ?_) fun _ t ht =>
          msSetAttrsLoop_safe (by simp) (fun i hi => List.mem_range.mp hi) ht
        cases lunsToBe attrs with
        | none => exact trivial
        | some toBe => exact ht
      exact hsafe.1
    · exact indexSafe_of_fail hrun rfl
    · rw [hrun] at hends
      exact hends.elim
  | importLuns root =>
    obtain ⟨hgood, hcount⟩ := h
    refine ⟨?_, fun hout => absurd hcount (by rw [LunsCall.OutOfRange] at hout; omega)⟩
    have hsafe : Safe IndexInRange (fun _ => MaskGood M f.dir) (fun _ => MaskGood M f.dir)
        (msLibconfigImportIndexed M.kernel root) (w, f) := by
      refine Safe.bind (R := fun _ => MaskGood M f.dir) (Safe.quiet ?_) fun stall t ht => ?_
      · cases usbgGetConfigNodeBool root "stall".toList <;> exact hgood.good hclean
      refine Safe.bind (R := fun _ => MaskGood M f.dir) (Safe.quiet ?_) fun _ t ht => ?_
      · cases stall with
        | none => exact ht
        | some stall => exact usbgFMsSetStall_good ht
      cases hluns : root.getMember "luns".toList with
      | none => exact Safe.quiet ht
      | some luns =>
        -- the number of a unit is its position in the list, which is not longer than the array
        rw [lunCount, hluns] at hcount
        refine Safe.bind (R := fun _ => MaskGood M f.dir) (Safe.quiet (Ends.require (fun _ => ht) fun _ => ht))
          fun _ t ht => Safe.bind (hmask ht) fun _ t ht => Safe.forEach (fun ni hni t ht => ?_) ht
        have hlt := List.snd_lt_of_mem_zipIdx hni
        refine msImportLun_safe (lt_of_lt_of_le ?_ hcount) ht
        simpa using hlt
    exact hsafe.1

/-- An import that succeeds has gone through all units. -/
lemma importLuns_indices (hclean : f.dir.Clean) (hsteady : SteadyScan M f.dir) {root : Setting}
    {t : World Fs × Func} (h : Allowed IndexInRange (msLibconfigImportIndexed M.kernel root) (w, f))
    (hok : (msLibconfigImportIndexed M.kernel root).run (w, f) = (.ok (), t)) :
    MaskReadable M w f ∧ lunCount root ≤ maxLuns := by
  obtain ⟨stall, t₁, hstall, -, h₁, hok₁⟩ := allowed_bind_ok h hok
  obtain ⟨⟨⟩, ⟨w₂, f₂⟩, hset, -, h₂, hok₂⟩ := allowed_bind_ok h₁ hok₁
  have hsame : f₂ = f ∧ NamesKept f.dir w₂.tree w.tree := by
    obtain rfl : t₁ = (w, f) := by
      cases hnode : usbgGetConfigNodeBool root "stall".toList with
      | error e =>
        rw [run_quiet, hnode] at hstall
        cases hstall
      | ok found =>
        rw [run_quiet, hnode] at hstall
        exact (Prod.mk.inj hstall).2.symm
    cases stall with
    | none =>
      obtain ⟨rfl, rfl⟩ := Prod.mk.inj (Prod.mk.inj hset).2
      exact ⟨rfl, .refl _ _⟩
    | some stall =>
      have hends : Ends _ _ _ (usbgFMsSetStall M.kernel stall (w, f)) := usbgFMsSetStall_ends (d := f.dir)
      rw [show usbgFMsSetStall M.kernel stall (w, f) = (.ok (), (w₂, f₂)) from hset] at hends
      exact ⟨hends.1, hends.2.2.2⟩
  obtain ⟨rfl, hback⟩ := hsame
  cases hluns : root.getMember "luns".toList with
  | none =>
    rw [hluns] at hok₂
    cases hok₂
  | some luns =>
    rw [hluns] at h₂ hok₂
    obtain ⟨⟨⟩, t₃, hlist, -, h₃, hok₃⟩ := allowed_bind_ok h₂ hok₂
    obtain ⟨mask, t₄, -, hallowed, hloop, hok₄⟩ := allowed_bind_ok h₃ hok₃
    obtain rfl : t₃ = (w₂, f₂) := by
      rw [run_quiet, Prog.require] at hlist
      split at hlist
      · exact (Prod.mk.inj hlist).2.symm
      · cases hlist
    refine ⟨maskReadable_of_allowed hclean hsteady hback hallowed, ?_⟩
    rw [lunCount, hluns]
    by_contra hlong
    have hmem : (luns.elems.get ⟨maxLuns, not_le.mp hlong⟩, maxLuns) ∈ luns.elems.zipIdx :=
      List.mem_zipIdx_iff_getElem?.mpr (List.getElem?_eq_getElem _)
    -- the round for the first unit that is too many
    obtain ⟨s', t', hround, hrun⟩ := allowed_forEach_ok hloop hok₄ _ hmem
    obtain ⟨⟨⟩, u, -, -, h₅, -⟩ := allowed_bind_ok hround hrun
    have hin := allowed_access.mp (allowed_bind.mp h₅).1 (some (maxLuns : ℤ)) (by simp)
    exact absurd hin.2 (lt_irrefl _)

/-- The numbers that come in with a call are in range if the accesses are. -/
lemma IndexSafe.indicesOk (hclean : f.dir.Clean) (hsteady : SteadyScan M f.dir) {c : LunsCall}
    (hrun : (∃ root, c = .importLuns root) → ∀ e, (c.run M.kernel (w, f)).1 ≠ .fail e)
    (h : IndexSafe M.kernel c (w, f)) : IndicesOk M w f c := by
  have hread : Allowed IndexInRange (getLunMaskIndexed M.kernel) (w, f) → MaskReadable M w f :=
    maskReadable_of_allowed hclean hsteady (.refl _ _)
  cases c with
  | createLun lunId lattrs =>
    rcases le_or_gt (maxLuns : ℤ) lunId with hle | hlt
    · exact .inl hle
    · refine .inr ((lunId_allowed hlt (fun _ t ht => ?_) h.inRange).imp_right hread)
      exact (allowed_access.mp ht (some lunId) (by simp)).1
  | rmLun lunId =>
    rcases le_or_gt (maxLuns : ℤ) lunId with hle | hlt
    · exact .inl hle
    · refine .inr ((lunId_allowed hlt (fun _ t ht => ?_) h.inRange).imp_right hread)
      exact (allowed_access.mp ht (some lunId) (by simp)).1
  | setAttrs attrs =>
    intro hstall
    have hends : Ends _ _ _ (usbgFMsSetStall M.kernel attrs.stall (w, f)) := usbgFMsSetStall_ends (d := f.dir)
    rcases hrun' : usbgFMsSetStall M.kernel attrs.stall (w, f) with ⟨_ | e | _, ⟨w₁, f₁⟩⟩ <;> rw [hrun'] at hends
    · obtain ⟨rfl, -, -, hback⟩ := hends
      obtain ⟨hmask, hrest⟩ := allowed_bind.mp ((allowed_bind.mp h.inRange).2 () (w₁, f₁) hrun')
      obtain ⟨luns, t, hluns⟩ := getLunMask_ok hmask
      obtain ⟨hmask', hrest⟩ := allowed_bind.mp (hrest luns t hluns)
      obtain ⟨luns', t', hluns'⟩ := getLunMask_ok hmask'
      have hasked := allowed_access.mp (allowed_bind.mp (hrest luns' t' hluns')).1
      refine ⟨maskReadable_of_allowed hclean hsteady hback hmask, fun id hid => ?_⟩
      exact (hasked (some id) (List.mem_append_right _ (List.mem_map_of_mem hid))).2
    · exact absurd hstall hends
    · exact hends.elim
  | importLuns root =>
    have hdef := faithful_msLibconfigImport (M := M) root (w, f) h.inRange
    have hfail := hrun ⟨root, rfl⟩
    rw [← LunsCall.run_indexed] at hfail
    rcases hr : (msLibconfigImportIndexed M.kernel root).run (w, f) with ⟨_ | e | _, t⟩
    · exact importLuns_indices hclean hsteady h.inRange hr
    · exact absurd (congrArg Prod.fst hr) (hfail e)
    · exact absurd (congrArg Prod.fst hr) hdef

/-- The accesses to the masks are in range, and requests out of range are turned down, if and only if the
numbers in the names and those that come in with the call are in range, or are looked at before. -/
theorem indexSafe_iff (M : Machine) (w : World Fs) (f : Func) (hclean : f.dir.Clean) (c : LunsCall) :
    (IndicesOk M w f c → IndexSafe M.kernel c (w, f)) ∧
      (SteadyScan M f.dir → ((∃ root, c = .importLuns root) → ∀ e, (c.run M.kernel (w, f)).1 ≠ .fail e) →
        IndexSafe M.kernel c (w, f) → IndicesOk M w f c) :=
  ⟨fun h => h.safe hclean, fun hsteady hrun h => h.indicesOk hclean hsteady hrun⟩

lemma LunsOk.namesInRange (h : LunsOk d T f) : NamesInRange d T := by
  intro name n hn _
  rcases h.names name n hn with hscan | ⟨i, hi, rfl, -⟩
  · exact .inl hscan
  · exact .inr ⟨i, hi, scanIndex_lunDir hi⟩

/-- Two units, one of them without a number of its own, for a function that has the first. -/
theorem indexSafe_twoUnits : IndexSafe (unitsMachine []).kernel
    (.setAttrs ⟨true, [unitAttrs (-1) "a.img".toList, unitAttrs 1 "b.img".toList]⟩)
    (worldOf (unitsTree [0]), unitsFunc) := by
  have hok : LunsOk unitsFunc.dir (unitsTree [0]) unitsFunc :=
    lunsOk_of_entries ⟨by decide, by decide +kernel⟩ rfl (by decide +kernel)
  exact (indexSafe_iff (unitsMachine []) (worldOf (unitsTree [0])) unitsFunc ⟨by decide, by decide +kernel⟩ _).1
    fun _ => ⟨fun _ _ => hok.namesInRange, by decide⟩

/-- A negative number is not turned down: it is used as an index. -/
theorem indexSafe_fails :
    ¬ IndexSafe (unitsMachine []).kernel (.createLun (-3) none) (worldOf (unitsTree [0]), unitsFunc) := by
  intro h
  have hmem : some (-3) ∈ (usbgFMsCreateLunIndexed (unitsMachine []).kernel (-3) none).trace
      (worldOf (unitsTree [0]), unitsFunc) := by decide +kernel
  exact absurd (h.inRange _ hmem) (by decide)

end Calls

end Libusbgx
