import Libusbgx.Base.Aligned
import Libusbgx.Source.Strings
import Mathlib.Data.List.TakeWhile

/-!
# The languages of the strings

The listing of the languages and the access to the strings of one language go opposite ways
between names and numbers.  They agree on a directory when its name is the one that is printed for
the language.
-/

namespace Libusbgx

open Prog

variable {κ : Type} {path : Path} {name : CStr}

/-! ## The two ways -/

/-- A name is read as the language it is printed for. -/
lemma langOf_langDir {lang : ℤ} (h0 : 0 ≤ lang) (h : lang < 65535) : langOf (langDir lang) = some lang := by
  obtain ⟨n, rfl⟩ := Int.eq_ofNat_of_zero_le h0
  have hread : strtoul 16 (langDir n) = (n, []) := strtoul_printHex (by omega)
  rw [langOf, hread]
  dsimp only
  rw [if_pos ⟨rfl, by omega⟩]

lemma langOf_range {dir : CStr} {lang : ℤ} (h : langOf dir = some lang) : 0 ≤ lang ∧ lang < 65535 := by
  rw [langOf] at h
  split_ifs at h with hread
  obtain rfl := Option.some.inj h
  omega

/-- What `scandir` with `file_select` gives for a directory with these entries. -/
def listed (ds : List Dirent) : List CStr :=
  ((ds.filter fileSelect).map Dirent.name).insertionSort (· ≤ ·)

/-- The entries of the array before its terminator. -/
def upToZero (langs : List ℤ) : List ℤ := langs.takeWhile (· ≠ 0)

/-- Reading the strings of a gadget in a directory. -/
def gadgetStrsIn (K : Kernel κ) (spath : Path) : Io κ GadgetStrs := do
  call K (.opendir spath)
  let manufacturer ← usbgReadStringAlloc K spath [] "manufacturer".toList
  let product ← usbgReadStringAlloc K spath [] "product".toList
  let serial ← usbgReadStringAlloc K spath [] "serialnumber".toList
  pure { manufacturer := some manufacturer, product := some product, serial := some serial }

/-- Reading the strings of a configuration in a directory. -/
def configStrsIn (K : Kernel κ) (spath : Path) : Io κ ConfigStrs := do
  call K (.opendir spath)
  let configuration ← usbgReadStringAlloc K spath [] "configuration".toList
  pure { configuration := some configuration }

/-- The strings of the language are read in the directory `dir`: on every system the reader of the
language does what reading in this directory does. -/
structure ReadsIn (path : Path) (name : CStr) (lang : ℤ) (dir : CStr) : Prop where
  gadget : ∀ (κ : Type) (K : Kernel κ),
    usbgParseGadgetStrs K path name lang = gadgetStrsIn K (path ++ [name, stringsDir, dir])
  config : ∀ (κ : Type) (K : Kernel κ),
    usbgParseConfigStrs K path name lang = configStrsIn K (path ++ [name, stringsDir, dir])

/-- A system that refuses to open any directory, one of them for another reason than the rest. -/
def noDirs (p : Path) : Kernel Unit where
  call c _ :=
    match c with
    | .opendir q => (.error (if q = p then .ebusy else .enoent), ())
    | _ => (.error .enoent, ())
  stale _ := []

/-- The strings of a language are read in the directory that is printed for it, and in no other. -/
lemma readsIn_iff {lang : ℤ} {dir : CStr} :
    ReadsIn path name lang dir ↔ langDir lang = dir ∧ (path ++ [name, stringsDir, dir]).Fits := by
  constructor
  · -- a kernel without directories tells by its errors which one the library asks for
    intro h
    have hrun := congrFun (h.config Unit (noDirs (path ++ [name, stringsDir, dir]))) ⟨(), 0⟩
    have hin : (configStrsIn (noDirs (path ++ [name, stringsDir, dir])) (path ++ [name, stringsDir, dir])
        ⟨(), 0⟩) = (.fail .busy, ⟨(), 0⟩) := by
      have hopen : call (noDirs (path ++ [name, stringsDir, dir]))
          (.opendir (path ++ [name, stringsDir, dir])) ⟨(), 0⟩ = (.fail .busy, ⟨(), 0⟩) := by
        simp [call, noDirs, usbgTranslateError]
      exact bind_fail hopen
    rw [hin] at hrun
    by_cases hfits : (path ++ [name, stringsDir, langDir lang]).Fits
    · have hdir : path ++ [name, stringsDir, langDir lang] = path ++ [name, stringsDir, dir] := by
        by_contra hne
        have hopen : openStrsDir (noDirs (path ++ [name, stringsDir, dir])) path name lang ⟨(), 0⟩ =
            (.fail .notFound, ⟨(), 0⟩) := by
          rw [openStrsDir, require_of hfits, pure_bind]
          have hcall : call (noDirs (path ++ [name, stringsDir, dir]))
              (.opendir (path ++ [name, stringsDir, langDir lang])) ⟨(), 0⟩ =
                (.fail .notFound, ⟨(), 0⟩) := by
            simp only [call, noDirs, if_neg hne, usbgTranslateError]
          exact bind_fail hcall
        rw [usbgParseConfigStrs, bind_fail hopen] at hrun
        cases (Prod.mk.inj hrun).1
      have hlang : langDir lang = dir := by simpa using hdir
      exact ⟨hlang, hlang ▸ hfits⟩
    · have hopen : openStrsDir (noDirs (path ++ [name, stringsDir, dir])) path name lang ⟨(), 0⟩ =
          (.fail .pathTooLong, ⟨(), 0⟩) := by
        rw [openStrsDir, require_of_not hfits]
        rfl
      rw [usbgParseConfigStrs, bind_fail hopen] at hrun
      cases (Prod.mk.inj hrun).1
  · -- the two runs are the same program
    rintro ⟨rfl, hfits⟩
    have hopen : ∀ (κ : Type) (K : Kernel κ), openStrsDir K path name lang =
        (call K (.opendir (path ++ [name, stringsDir, langDir lang])) >>= fun _ =>
          pure (path ++ [name, stringsDir, langDir lang])) := by
      intro κ K
      rw [openStrsDir, require_of hfits]
      exact Prog.pure_bind () _
    constructor
    · intro κ K
      rw [usbgParseGadgetStrs, hopen, Prog.bind_assoc]
      rfl
    · intro κ K
      rw [usbgParseConfigStrs, hopen, Prog.bind_assoc]
      rfl

/-! ## The listing -/

/-- The setting is a group for the language of the directory. -/
def ExportsLang (path : Path) (name : CStr) (node : Setting) (dir : CStr) : Prop :=
  ∃ lang strs, node = .group (("lang".toList, .int lang) :: strs) ∧ ReadsIn path name lang dir

/-- When the strings directory has the entries `ds`, every listing of the languages that succeeds has
one entry for each directory, in order, under which the strings of this directory are read; and an
export that succeeds has a group for each directory. -/
structure LangsAgree (path : Path) (name : CStr) (ds : List Dirent) : Prop where
  listing : ∀ (κ : Type) (K : Kernel κ) (w w' : World κ) (langs : List ℤ),
    (K.call (.scandir (path ++ [name, stringsDir])) w.sys).1 = .ok ds →
      usbgGetStrsLangsByPath K path name w = (.ok langs, w') →
        List.Forall₂ (ReadsIn path name) (upToZero langs) (listed ds)
  gadgetExport : ∀ (κ : Type) (K : Kernel κ) (g : Gadget) (w w' : World κ) (nodes : List Setting),
    g.path = path → g.name = name →
      (K.call (.scandir (path ++ [name, stringsDir])) w.sys).1 = .ok ds →
        usbgExportGadgetStrings K g w = (.ok nodes, w') →
          List.Forall₂ (ExportsLang path name) nodes (listed ds)
  configExport : ∀ (κ : Type) (K : Kernel κ) (c : Config) (w w' : World κ) (nodes : List Setting),
    c.path = path → c.name = name →
      (K.call (.scandir (path ++ [name, stringsDir])) w.sys).1 = .ok ds →
        usbgExportConfigStrings K c w = (.ok nodes, w') →
          List.Forall₂ (ExportsLang path name) nodes (listed ds)

/-- Some name is no number below 65535 (or the path is too long), so that the listing fails, or every
name is the one that is printed for a language other than 0 (and its path is not too long). -/
def LangsPrinted (path : Path) (name : CStr) (ds : List Dirent) : Prop :=
  (∃ dir ∈ listed ds, langOf dir = none) ∨ ¬ (path ++ [name, stringsDir]).Fits ∨
    ∀ dir ∈ listed ds, ∃ lang, 0 < lang ∧ lang < 65535 ∧ dir = langDir lang ∧
      (path ++ [name, stringsDir, dir]).Fits

/-- A listing that succeeds has read all names. -/
lemma usbgGetStrsLangsByPath_eq_ok {K : Kernel κ} {w w' : World κ} {langs : List ℤ} {ds : List Dirent}
    (hds : (K.call (.scandir (path ++ [name, stringsDir])) w.sys).1 = .ok ds)
    (h : usbgGetStrsLangsByPath K path name w = (.ok langs, w')) :
    (path ++ [name, stringsDir]).Fits ∧
      ∃ ls, List.Forall₂ (fun dir lang => langOf dir = some lang) (listed ds) ls ∧ langs = ls ++ [0] := by
  rw [usbgGetStrsLangsByPath] at h
  obtain ⟨_, w₀, hfits, hrest⟩ := bind_eq_ok.mp h
  obtain ⟨names, w₁, hscan, hread⟩ := bind_eq_ok.mp hrest
  by_cases hf : (path ++ [name, stringsDir]).Fits
  · rw [require_of hf] at hfits
    obtain ⟨-, rfl⟩ := Prod.mk.inj hfits
    have hnames : names = listed ds := by
      rw [scandir] at hscan
      rw [bind_ok (call_of_ok K hds)] at hscan
      exact (Outcome.ok.inj (Prod.mk.inj hscan).1).symm
    cases hlangs : names.mapM langOf with
    | none =>
      rw [hlangs] at hread
      cases hread
    | some ls =>
      rw [hlangs] at hread
      refine ⟨hf, ls, hnames ▸ mapM_eq_some_iff.mp hlangs, ?_⟩
      exact (Outcome.ok.inj (Prod.mk.inj hread).1).symm
  · rw [require_of_not hf] at hfits
    cases hfits

/-- An export that succeeds has a group for each language before the terminator. -/
lemma exportLangs_eq_ok {exportLang : ℤ → Io κ Setting} {R : Setting → ℤ → Prop}
    (hone : ∀ lang w node w', exportLang lang w = (.ok node, w') → R node lang) {langs : List ℤ}
    {w w' : World κ} {nodes : List Setting} (h : exportLangs exportLang langs w = (.ok nodes, w')) :
    List.Forall₂ R nodes (upToZero langs) := by
  induction langs generalizing w w' nodes with
  | nil => cases h
  | cons lang langs ih =>
    rw [exportLangs] at h
    split_ifs at h with h0
    · obtain ⟨⟨rfl⟩, -⟩ := Prod.mk.inj h
      simp [upToZero, h0]
    · obtain ⟨node, w₁, hnode, htail⟩ := bind_eq_ok.mp h
      obtain ⟨rest, w₂, hrest, hend⟩ := bind_eq_ok.mp htail
      obtain ⟨⟨rfl⟩, -⟩ := Prod.mk.inj hend
      rw [upToZero, List.takeWhile_cons_of_pos (by simpa using h0)]
      exact .cons (hone lang w node w₁ hnode) (ih hrest)

/-- Under the condition every listing that succeeds is right. -/
lemma LangsPrinted.readsIn {ds : List Dirent} (h : LangsPrinted path name ds) {K : Kernel κ}
    {w w' : World κ} {langs : List ℤ}
    (hds : (K.call (.scandir (path ++ [name, stringsDir])) w.sys).1 = .ok ds)
    (hrun : usbgGetStrsLangsByPath K path name w = (.ok langs, w')) :
    List.Forall₂ (ReadsIn path name) (upToZero langs) (listed ds) := by
  obtain ⟨hfits, ls, hls, rfl⟩ := usbgGetStrsLangsByPath_eq_ok hds hrun
  rcases h with ⟨dir, hdir, hnone⟩ | hlong | hprinted
  · obtain ⟨lang, -, hlang⟩ := exists_of_forall₂' hls hdir
    rw [hnone] at hlang
    cases hlang
  · exact absurd hfits hlong
  · -- each name is read as the language it is printed for
    have hread : ∀ dir ∈ listed ds, ∀ lang, langOf dir = some lang →
        lang ≠ 0 ∧ ReadsIn path name lang dir := by
      intro dir hdir lang hlang
      obtain ⟨lang', h0, h65535, rfl, hfits'⟩ := hprinted dir hdir
      rw [langOf_langDir h0.le h65535] at hlang
      obtain rfl := Option.some.inj hlang
      exact ⟨h0.ne', readsIn_iff.mpr ⟨rfl, hfits'⟩⟩
    have hnonzero : ∀ lang ∈ ls, lang ≠ 0 := by
      intro lang hmem
      obtain ⟨dir, hdir, hlang⟩ := exists_of_forall₂ hls hmem
      exact (hread dir hdir lang hlang).1
    have hup : upToZero (ls ++ [0]) = ls := by
      rw [upToZero, List.takeWhile_append_of_pos (by simpa using hnonzero)]
      simp
    rw [hup]
    refine List.Forall₂.flip ?_
    refine (List.forall₂_iff_get.mpr ⟨hls.length_eq, fun i hi hi' => ?_⟩)
    exact (hread _ (List.get_mem ..) _ (hls.get hi hi')).2

/-- A directory that lists what it should, in a system where nothing else can be reached. -/
def onlyListing (ds : List Dirent) : Kernel Unit where
  call c _ :=
    match c with
    | .scandir _ => (.ok ds, ())
    | _ => (.error .enoent, ())
  stale _ := []

/-- Where the listing cannot fail, the names have to be those of the languages. -/
lemma LangsAgree.printed {ds : List Dirent} (h : LangsAgree path name ds) : LangsPrinted path name ds := by
  by_cases hfits : (path ++ [name, stringsDir]).Fits
  · cases hlangs : (listed ds).mapM langOf with
    | none => exact .inl (mapM_eq_none_iff.mp hlangs)
    | some ls =>
      have hrun : usbgGetStrsLangsByPath (onlyListing ds) path name ⟨(), 0⟩ =
          (.ok (ls ++ [0]), ⟨(), 0⟩) := by
        have hscan : scandir (onlyListing ds) (path ++ [name, stringsDir]) fileSelect ⟨(), 0⟩ =
            (.ok (listed ds), ⟨(), 0⟩) := rfl
        rw [usbgGetStrsLangsByPath, require_of hfits, pure_bind, bind_ok hscan, hlangs]
        rfl
      have hreads := h.listing Unit (onlyListing ds) _ _ _ rfl hrun
      refine .inr (.inr fun dir hdir => ?_)
      obtain ⟨lang, hmem, hread⟩ := exists_of_forall₂ hreads hdir
      obtain ⟨rfl, hfits'⟩ := readsIn_iff.mp hread
      have h0 : lang ≠ 0 := by simpa using List.mem_takeWhile_imp hmem
      have hmem' : lang ∈ ls := by
        rcases List.mem_append.mp ((List.takeWhile_prefix _).subset hmem) with hmem | hmem
        · exact hmem
        · exact absurd (List.mem_singleton.mp hmem) h0
      obtain ⟨dir, -, hlang⟩ := exists_of_forall₂ (mapM_eq_some_iff.mp hlangs) hmem'
      obtain ⟨hge, hlt⟩ := langOf_range hlang
      exact ⟨lang, lt_of_le_of_ne hge h0.symm, hlt, rfl, hfits'⟩
  · exact .inr (.inl hfits)

/-- Listing the languages and reading the strings of one agree exactly when every directory has the
name that is printed for a language other than 0, or the listing fails. -/
theorem langsAgree_iff (path : Path) (name : CStr) (ds : List Dirent) :
    LangsAgree path name ds ↔ LangsPrinted path name ds := by
  refine ⟨LangsAgree.printed, fun h => ⟨?_, ?_, ?_⟩⟩
  · intro κ K w w' langs hds hrun
    exact h.readsIn hds hrun
  · rintro κ K g w w' nodes rfl rfl hds hrun
    obtain ⟨langs, w₁, hlangs, hexport⟩ := bind_eq_ok.mp hrun
    refine forall₂_comp (R := fun node lang => ∃ strs, node = .group (("lang".toList, .int lang) :: strs))
      ?_ (exportLangs_eq_ok ?_ hexport) (h.readsIn hds hlangs)
    · rintro node lang dir ⟨strs, rfl⟩ hread
      exact ⟨lang, strs, rfl, hread⟩
    · intro lang w node w' hnode
      obtain ⟨spath, _, -, hnode⟩ := bind_eq_ok.mp hnode
      obtain ⟨manufacturer, _, -, hnode⟩ := bind_eq_ok.mp hnode
      obtain ⟨product, _, -, hnode⟩ := bind_eq_ok.mp hnode
      obtain ⟨serial, _, -, hnode⟩ := bind_eq_ok.mp hnode
      exact ⟨_, (Outcome.ok.inj (Prod.mk.inj hnode).1).symm⟩
  · rintro κ K c w w' nodes rfl rfl hds hrun
    obtain ⟨langs, w₁, hlangs, hexport⟩ := bind_eq_ok.mp hrun
    refine forall₂_comp (R := fun node lang => ∃ strs, node = .group (("lang".toList, .int lang) :: strs))
      ?_ (exportLangs_eq_ok ?_ hexport) (h.readsIn hds hlangs)
    · rintro node lang dir ⟨strs, rfl⟩ hread
      exact ⟨lang, strs, rfl, hread⟩
    · intro lang w node w' hnode
      obtain ⟨strs, _, -, hnode⟩ := bind_eq_ok.mp hnode
      obtain ⟨configuration, _, -, hnode⟩ := bind_eq_ok.mp hnode
      exact ⟨_, (Outcome.ok.inj (Prod.mk.inj hnode).1).symm⟩

/-- The directory `0x0409` is listed as a language that is looked for in `0x409`. -/
theorem langsAgree_fails :
    ¬ LangsAgree ["/config".toList, gadgetsDir] "g".toList [{ name := "0x0409".toList, isLink := false }] := by
  intro h
  rcases h.printed with ⟨dir, hdir, hnone⟩ | hlong | hprinted
  · obtain rfl : dir = "0x0409".toList := by simpa [listed, fileSelect] using hdir
    exact absurd hnone (by decide)
  · exact hlong (by decide)
  · obtain ⟨lang, h0, h65535, hdir, -⟩ := hprinted "0x0409".toList (by decide)
    have hlang := langOf_langDir h0.le h65535
    rw [← hdir, show langOf "0x0409".toList = some 0x409 by decide] at hlang
    obtain rfl := Option.some.inj hlang
    exact absurd hdir (by decide)

end Libusbgx
