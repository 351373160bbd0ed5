import Libusbgx.Undo.Creation

/-!
# Which failures leave something behind

The set-up of a gadget or a configuration makes one directory, that of the language, and only writes
files after that; the single `rmdir` is not enough exactly when one of these writes fails.
-/

namespace Libusbgx

open Prog Machine

variable {M : Machine} {p path : Path} {w : World Fs} {σ α β γ L : Type}

/-! ## Steps that only write -/

/-- The program leaves the directories and links that the user has made below `p` as they are. -/
def LeavesMade (p : Path) (m : Io Fs α) : Prop :=
  ∀ b : Prop, Keeps (fun w : World Fs => w.tree.MadeBelow p ↔ b) m

namespace LeavesMade

lemma pure (a : α) : LeavesMade p (pure a : Io Fs α) := fun _ => .pure a

lemma bind {m : Io Fs α} {f : α → Io Fs β} (hm : LeavesMade p m) (hf : ∀ a, LeavesMade p (f a)) :
    LeavesMade p (m >>= f) := fun b => .bind (hm b) fun a => hf a b

lemma whenSome {f : α → Io Fs Unit} {o : Option α} (h : ∀ a, o = some a → LeavesMade p (f a)) :
    LeavesMade p (Prog.whenSome f o) := fun b => .whenSome fun a ha => h a ha b

end LeavesMade

lemma madeBelow_replace {T : Tree} {q : Path} {content data : CStr} (hfile : T.get q = some (.file content)) :
    (T.replace q (.file data)).MadeBelow p ↔ T.MadeBelow p := by
  have hmade : ∀ r, ((T.replace q (.file data)).get r).any Node.made = (T.get r).any Node.made := by
    intro r
    rw [FileTree.get_replace]
    split
    · next heq => rw [heq, hfile]; rfl
    · rfl
  have hiff : ∀ T : Tree, T.MadeBelow p ↔ ∃ r, p <+: r ∧ r ≠ p ∧ (T.get r).any Node.made = true := by
    intro T
    rw [FileTree.madeBelow_iff]
    constructor
    · rintro ⟨r, n, hn, hr, hne, hmade⟩
      exact ⟨r, hr, hne, by rw [hn]; exact hmade⟩
    · rintro ⟨r, hr, hne, hmade⟩
      cases hn : T.get r with
      | none =>
        rw [hn] at hmade
        cases hmade
      | some n =>
        rw [hn] at hmade
        exact ⟨r, n, hn, hr, hne, hmade⟩
  simp only [hiff, hmade]

lemma leavesMade_usbgWriteBuf {name file buf : CStr} : LeavesMade p (usbgWriteBuf M.kernel path name file buf) := by
  intro b w hw
  have h : Ends (fun _ (w' : World Fs) => w'.tree.MadeBelow p ↔ b) (fun _ w' => w'.tree.MadeBelow p ↔ b) False
      (usbgWriteBuf M.kernel path name file buf w) := by
    refine ends_usbgWriteBuf (fun w' hfile ht _ => ?_) fun e w' ht _ => by rwa [ht]
    obtain ⟨content, hfile⟩ := hfile
    rw [ht, madeBelow_replace hfile]
    exact hw
  rcases hr : usbgWriteBuf M.kernel path name file buf w with ⟨_ | _ | _, w'⟩ <;> rw [hr] at h
  · exact h
  · exact h
  · exact h.elim

lemma leavesMade_usbgWriteString {name file : CStr} {buf : Option CStr} :
    LeavesMade p (usbgWriteString M.kernel path name file buf) := by
  cases buf with
  | none => exact fun _ => .fail _
  | some buf => exact leavesMade_usbgWriteBuf

lemma leavesMade_usbgSetGadgetAttrs {g : Gadget} {attrs : GadgetAttrs} :
    LeavesMade p (usbgSetGadgetAttrs M.kernel g attrs) :=
  .bind leavesMade_usbgWriteBuf fun _ => .bind leavesMade_usbgWriteBuf fun _ =>
    .bind leavesMade_usbgWriteBuf fun _ => .bind leavesMade_usbgWriteBuf fun _ =>
    .bind leavesMade_usbgWriteBuf fun _ => .bind leavesMade_usbgWriteBuf fun _ =>
    .bind leavesMade_usbgWriteBuf fun _ => leavesMade_usbgWriteBuf

lemma leavesMade_usbgSetConfigAttrs {c : Config} {attrs : ConfigAttrs} :
    LeavesMade p (usbgSetConfigAttrs M.kernel c attrs) :=
  .bind leavesMade_usbgWriteBuf fun _ => leavesMade_usbgWriteBuf

/-! ## Steps that fail with nothing made -/

/-- The program does not fail. -/
def Succeeds (m : Io Fs α) (w : World Fs) : Prop :=
  Ends (fun _ _ => True) (fun _ _ => False) True (m w)

/-- If the program fails, nothing that the user has made is below `p` then. -/
def FailsBare (p : Path) (m : Io Fs α) (w : World Fs) : Prop :=
  Ends (fun _ _ => True) (fun _ w' => ¬ w'.tree.MadeBelow p) True (m w)

namespace FailsBare

lemma of_leavesMade {m : Io Fs α} (hm : LeavesMade p m) (hw : ¬ w.tree.MadeBelow p) : FailsBare p m w :=
  (Keeps.ends (hm False) (iff_false_intro hw)).mono (fun _ _ _ => trivial) fun _ _ h => h.mp

lemma seq {m : Io Fs α} {f : α → Io Fs β} (hm : LeavesMade p m) (hw : ¬ w.tree.MadeBelow p)
    (hf : ∀ a w, ¬ w.tree.MadeBelow p → FailsBare p (f a) w) : FailsBare p (m >>= f) w :=
  Ends.bind ((Keeps.ends (hm False) (iff_false_intro hw)).mono (fun _ _ h => h) fun _ _ h => h.mp)
    fun a w h => hf a w h.mp

/-- A step that fails with nothing made, and one that only writes: what the first has made stays when the
second fails. -/
lemma bind_iff {m : Io Fs α} {f : α → Io Fs β} (hm : FailsBare p m w) (hf : ∀ a, LeavesMade p (f a)) :
    FailsBare p (m >>= f) w ↔ ∀ a w', m w = (.ok a, w') → w'.tree.MadeBelow p → Succeeds (f a) w' := by
  rw [FailsBare] at hm ⊢
  rcases hr : m w with ⟨a | e | _, w₁⟩
  · rw [bind_ok hr]
    have hkeeps := hf a (w₁.tree.MadeBelow p) w₁ Iff.rfl
    have honly : (∀ a' w', ((.ok a, w₁) : Outcome UsbgError α × _) = (.ok a', w') → w'.tree.MadeBelow p →
        Succeeds (f a') w') ↔ (w₁.tree.MadeBelow p → Succeeds (f a) w₁) := by
      refine ⟨fun h => h a w₁ rfl, fun h a' w' heq => ?_⟩
      obtain ⟨ha, rfl⟩ := Prod.mk.inj heq
      rw [← Outcome.ok.inj ha]
      exact h
    rw [honly, Succeeds]
    rcases hs : f a w₁ with ⟨_ | _ | _, w₂⟩ <;> rw [hs] at hkeeps
    · exact iff_of_true trivial fun _ => trivial
    · exact not_congr hkeeps
    · exact iff_of_true trivial fun _ => trivial
  · rw [hr] at hm
    rw [bind_fail hr]
    refine iff_of_true hm fun _ _ h => ?_
    cases h
  · rw [bind_undef hr]
    refine iff_of_true trivial fun _ _ h => ?_
    cases h

end FailsBare

/-! ## The directory of the language -/

section Parts

variable {κ : Type} (K : Kernel κ)

/-- How both setters of strings begin. -/
def makeLangDir (path : Path) : Io κ Unit := do
  require path.Fits .pathTooLong
  usbgCheckDir K path

/-- What `usbg_create_gadget` does in the directory. -/
def gadgetSetUp (attrs : Option GadgetAttrs) (strs : Option GadgetStrs) (gad : Gadget) : Io κ Unit := do
  whenSome (usbgSetGadgetAttrs K gad) attrs
  whenSome (usbgSetGadgetStrs K gad langUsEng) strs

/-- The part of it up to the directory of the language. -/
def gadgetLangSetUp (attrs : Option GadgetAttrs) (strs : Option GadgetStrs) (gad : Gadget) : Io κ Unit := do
  whenSome (usbgSetGadgetAttrs K gad) attrs
  whenSome (fun _ => makeLangDir K (gad.path ++ [gad.name, stringsDir, langDir langUsEng])) strs

/-- The strings that `usbg_create_gadget` writes. -/
def writeGadgetStrs (strs : Option GadgetStrs) (gad : Gadget) : Io κ Unit :=
  whenSome (fun strs => do
    let path := gad.path ++ [gad.name, stringsDir, langDir langUsEng]
    whenSome (fun val => usbgWriteString K path [] "manufacturer".toList (some val)) strs.manufacturer
    whenSome (fun val => usbgWriteString K path [] "product".toList (some val)) strs.product
    whenSome (fun val => usbgWriteString K path [] "serialnumber".toList (some val)) strs.serial) strs

/-- What `usbg_create_config` does up to the directory of the language. -/
def configLangSetUp (attrs : Option ConfigAttrs) (strs : Option ConfigStrs) (conf : Config) : Io κ Unit := do
  whenSome (usbgSetConfigAttrs K conf) attrs
  whenSome (fun strs => do
    require (strs.configuration ≠ none) .invalidParam
    makeLangDir K (conf.path ++ [conf.name, stringsDir, langDir langUsEng])) strs

/-- The string that `usbg_create_config` writes. -/
def writeConfigStrs (strs : Option ConfigStrs) (conf : Config) : Io κ Unit :=
  whenSome (fun strs => usbgWriteString K (conf.path ++ [conf.name, stringsDir, langDir langUsEng]) []
    "configuration".toList strs.configuration) strs

/-- What `usbg_create_gadget_vid_pid` does in the directory. -/
def idsSetUp (name : CStr) (idVendor idProduct : UInt16) (gad : Gadget) : Io κ Unit := do
  usbgWriteHex16 K gad.path name "idVendor".toList idVendor.toNat
  usbgWriteHex16 K gad.path name "idProduct".toList idProduct.toNat

lemma gadgetSetUp_eq (attrs : Option GadgetAttrs) (strs : Option GadgetStrs) (gad : Gadget) :
    gadgetSetUp K attrs strs gad = gadgetLangSetUp K attrs strs gad >>= fun _ => writeGadgetStrs K strs gad := by
  rw [gadgetSetUp, gadgetLangSetUp, Prog.bind_assoc]
  cases strs with
  | none => rfl
  | some strs =>
    simp only [whenSome_some, usbgSetGadgetStrs, writeGadgetStrs, makeLangDir, Prog.bind_assoc]

lemma configSetUp_eq (attrs : Option ConfigAttrs) (strs : Option ConfigStrs) (conf : Config) :
    configSetUp K attrs strs conf =
      configLangSetUp K attrs strs conf >>= fun _ => writeConfigStrs K strs conf := by
  rw [configSetUp, configLangSetUp, Prog.bind_assoc]
  cases strs with
  | none => rfl
  | some strs =>
    rcases strs with ⟨- | str⟩
    · rfl
    · simp only [whenSome_some, usbgSetConfigString, writeConfigStrs, makeLangDir, Prog.bind_assoc]
      rfl

end Parts

/-- Opening a directory changes nothing. -/
lemma eq_of_opendir {T T' : Tree} (h : Change M T (.opendir path) T') : T' = T := by
  cases h with
  | same => rfl
  | rmdir _ hc => exact hc.elim
  | unlink _ hc => exact hc.elim

lemma failsBare_makeLangDir (hw : ¬ w.tree.MadeBelow p) : FailsBare p (makeLangDir M.kernel path) w := by
  rw [FailsBare, makeLangDir]
  refine Ends.require_bind (fun _ => ?_) fun _ => hw
  rw [usbgCheckDir]
  have hopen : (rawCall M.kernel (.opendir path) w).2.tree = w.tree := eq_of_opendir (kernel_change M _ w)
  refine Ends.bind (R := fun _ (w' : World Fs) => w'.tree = w.tree) hopen ?_
  rintro (e | _) w' ht
  · dsimp only
    refine Ends.ite (fun _ => ?_) fun _ => ?_
    · exact ends_mkdir (fun _ _ _ => trivial) fun e w'' ht' _ => by rwa [ht', ht]
    · show ¬ w'.tree.MadeBelow p
      rwa [ht]
  · trivial

/-! ## The constructors -/

lemma failsBare_gadgetLangSetUp {attrs : Option GadgetAttrs} {strs : Option GadgetStrs} {gad : Gadget}
    (hw : ¬ w.tree.MadeBelow p) : FailsBare p (gadgetLangSetUp M.kernel attrs strs gad) w := by
  refine .seq (.whenSome fun _ _ => leavesMade_usbgSetGadgetAttrs) hw fun _ w hw => ?_
  cases strs with
  | none => trivial
  | some strs => exact failsBare_makeLangDir hw

lemma failsBare_configLangSetUp {attrs : Option ConfigAttrs} {strs : Option ConfigStrs} {conf : Config}
    (hw : ¬ w.tree.MadeBelow p) : FailsBare p (configLangSetUp M.kernel attrs strs conf) w := by
  refine .seq (.whenSome fun _ _ => leavesMade_usbgSetConfigAttrs) hw fun _ w hw => ?_
  cases strs with
  | none => trivial
  | some strs => exact Ends.require_bind (fun _ => failsBare_makeLangDir hw) fun _ => hw

lemma leavesMade_writeGadgetStrs {strs : Option GadgetStrs} {gad : Gadget} :
    LeavesMade p (writeGadgetStrs M.kernel strs gad) :=
  .whenSome fun _ _ => .bind (.whenSome fun _ _ => leavesMade_usbgWriteString) fun _ =>
    .bind (.whenSome fun _ _ => leavesMade_usbgWriteString) fun _ =>
      .whenSome fun _ _ => leavesMade_usbgWriteString

lemma leavesMade_writeConfigStrs {strs : Option ConfigStrs} {conf : Config} :
    LeavesMade p (writeConfigStrs M.kernel strs conf) :=
  .whenSome fun _ _ => leavesMade_usbgWriteString

lemma leavesMade_idsSetUp {name : CStr} {idVendor idProduct : UInt16} {gad : Gadget} :
    LeavesMade p (idsSetUp M.kernel name idVendor idProduct gad) :=
  .bind leavesMade_usbgWriteBuf fun _ => leavesMade_usbgWriteBuf

/-- If a directory for the language has been made, the strings are written to it without a failure. -/
def StringsWritten (make : On Fs σ β) (langSetUp writes : β → Io Fs Unit) (dir : β → Path) (t : World Fs × σ) :
    Prop :=
  ∀ b t₁, make t = (.ok b, t₁) → ∀ w₂, langSetUp b t₁.1 = (.ok (), w₂) → w₂.tree.MadeBelow (dir b).resolve →
    Succeeds (writes b) w₂

lemma setUpClean_iff {lists : σ → L} {make : On Fs σ β} {setUp : β → Io Fs γ} {rmPath : β → Path}
    {t : World Fs × σ} {E : UsbgError → World Fs × σ → Prop}
    (hmake : Ends (fun b t' => HasMade lists setUp rmPath t b t' ∧ (rmPath b).Fits) E True (make t)) :
    SetUpClean make setUp rmPath t ↔
      ∀ b t₁, make t = (.ok b, t₁) → FailsBare (rmPath b).resolve (setUp b) t₁.1 := by
  refine forall_congr' fun b => forall_congr' fun t₁ => forall_congr' fun hm => ?_
  rw [hm] at hmake
  obtain ⟨-, hfits⟩ : HasMade lists setUp rmPath t b t₁ ∧ (rmPath b).Fits := hmake
  simp only [FailsBare, hfits, and_true]

lemma stringsWritten_iff {lists : σ → L} {make : On Fs σ β} {setUp langSetUp writes : β → Io Fs Unit}
    {rmPath : β → Path} {t : World Fs × σ} {E : UsbgError → World Fs × σ → Prop}
    (hmake : Ends (fun b t' => HasMade lists setUp rmPath t b t' ∧ (rmPath b).Fits) E True (make t))
    (heq : ∀ b, setUp b = langSetUp b >>= fun _ => writes b)
    (hlang : ∀ b w, ¬ w.tree.MadeBelow (rmPath b).resolve → FailsBare (rmPath b).resolve (langSetUp b) w)
    (hwrites : ∀ b, LeavesMade (rmPath b).resolve (writes b)) :
    SetUpClean make setUp rmPath t ↔ StringsWritten make langSetUp writes rmPath t := by
  rw [setUpClean_iff hmake]
  refine forall_congr' fun b => forall_congr' fun t₁ => forall_congr' fun hm => ?_
  rw [hm] at hmake
  obtain ⟨hmade, -⟩ : HasMade lists setUp rmPath t b t₁ ∧ (rmPath b).Fits := hmake
  rw [heq, FailsBare.bind_iff (hlang b t₁.1 hmade.empty) fun _ => hwrites b]
  exact ⟨fun h w₂ => h () w₂, fun h _ => h⟩

section Main

variable {s : State} {g : Gadget}

lemma createsCleanly_createGadgetWith (hgrants : ∀ p, M.Grants (.rmdir p)) (hrooted : Rooted w.tree)
    (hlinks : LinksAlive w.tree) (hclean : s.path.Clean) (hdir : w.tree.IsDir s.path) {name : CStr}
    {setUp : Gadget → Io Fs Unit} (hset : SetsUpBelow M s.path name setUp) :
    CreatesCleanly State.gadgets (createGadgetWith M.kernel name setUp) (w, s) ↔
      SetUpClean (makeGadgetDir M.kernel name) setUp (fun gad => gad.path ++ [gad.name]) (w, s) := by
  rw [createGadgetWith_eq]
  have hmake := makeGadgetDir_ends hclean hdir hrooted hlinks (hgrants _) hset
  refine createsCleanly_iff (hmake.mono (fun _ _ h => ⟨h.1, cleansUp_usbgRmDir (hgrants _)⟩) fun _ _ h => h) ?_
  intro b c t
  trivial

lemma setsUpBelow_gadgetSetUp {path : Path} {name : CStr} {attrs : Option GadgetAttrs} {strs : Option GadgetStrs} :
    SetsUpBelow M path name (gadgetSetUp M.kernel attrs strs) := by
  rintro gad I rfl rfl hst
  exact .bind (.whenSome fun _ _ => hst.keeps_usbgSetGadgetAttrs List.prefix_rfl) fun _ =>
    .whenSome fun _ _ => hst.keeps_usbgSetGadgetStrs List.prefix_rfl

lemma setsUpBelow_idsSetUp {path : Path} {name : CStr} {idVendor idProduct : UInt16} :
    SetsUpBelow M path name (idsSetUp M.kernel name idVendor idProduct) := by
  rintro gad I rfl rfl hst
  exact .bind (hst.keeps_usbgWriteHex16 (below_cons List.prefix_rfl _)) fun _ =>
    hst.keeps_usbgWriteHex16 (below_cons List.prefix_rfl _)

lemma createsCleanly_usbgCreateGadget (hgrants : ∀ p, M.Grants (.rmdir p)) (hrooted : Rooted w.tree)
    (hlinks : LinksAlive w.tree) (hclean : s.path.Clean) (hdir : w.tree.IsDir s.path) {name : CStr}
    {attrs : Option GadgetAttrs} {strs : Option GadgetStrs} :
    CreatesCleanly State.gadgets (usbgCreateGadget M.kernel name attrs strs) (w, s) ↔
      StringsWritten (makeGadgetDir M.kernel name) (gadgetLangSetUp M.kernel attrs strs)
        (writeGadgetStrs M.kernel strs) Gadget.dir (w, s) := by
  have hset : SetsUpBelow M s.path name (gadgetSetUp M.kernel attrs strs) := setsUpBelow_gadgetSetUp
  have hmake := makeGadgetDir_ends hclean hdir hrooted hlinks (hgrants _) hset
  exact (createsCleanly_createGadgetWith hgrants hrooted hlinks hclean hdir hset).trans
    (stringsWritten_iff hmake (gadgetSetUp_eq M.kernel attrs strs) (fun _ _ => failsBare_gadgetLangSetUp)
      fun _ => leavesMade_writeGadgetStrs)

/-- Two numbers are written, and nothing is made. -/
lemma createsCleanly_usbgCreateGadgetVidPid (hgrants : ∀ p, M.Grants (.rmdir p)) (hrooted : Rooted w.tree)
    (hlinks : LinksAlive w.tree) (hclean : s.path.Clean) (hdir : w.tree.IsDir s.path) (name : CStr)
    (idVendor idProduct : UInt16) :
    CreatesCleanly State.gadgets (usbgCreateGadgetVidPid M.kernel name idVendor idProduct) (w, s) := by
  have hset : SetsUpBelow M s.path name (idsSetUp M.kernel name idVendor idProduct) := setsUpBelow_idsSetUp
  have hmake := makeGadgetDir_ends hclean hdir hrooted hlinks (hgrants _) hset
  refine (createsCleanly_createGadgetWith hgrants hrooted hlinks hclean hdir hset).mpr ?_
  refine (setUpClean_iff hmake).mpr fun gad t₁ hm => ?_
  rw [hm] at hmake
  obtain ⟨hmade, -⟩ : HasMade State.gadgets (idsSetUp M.kernel name idVendor idProduct)
    (fun gad => gad.path ++ [gad.name]) (w, s) gad t₁ ∧ (gad.path ++ [gad.name]).Fits := hmake
  exact .of_leavesMade leavesMade_idsSetUp hmade.empty

lemma createsCleanly_usbgCreateConfig (hgrants : ∀ p, M.Grants (.rmdir p)) (hrooted : Rooted w.tree)
    (hlinks : LinksAlive w.tree) (hclean : g.dir.Clean) {n : ℤ} {label : Option CStr} {attrs : Option ConfigAttrs}
    {strs : Option ConfigStrs} :
    CreatesCleanly (fun g => g) (usbgCreateConfig M.kernel n label attrs strs) (w, g) ↔
      StringsWritten (makeConfigDir M.kernel n label) (configLangSetUp M.kernel attrs strs)
        (writeConfigStrs M.kernel strs) Config.dir (w, g) := by
  have hmake := makeConfigDir_ends M n label attrs strs hclean hrooted hlinks
  rw [usbgCreateConfig_eq]
  refine (createsCleanly_iff (hmake.mono (fun _ _ h => ⟨h.1, cleansUp_tryCall (hgrants _) h.2⟩) fun _ _ h => h)
    ?_).trans ?_
  · intro conf c t
    trivial
  · exact stringsWritten_iff hmake (configSetUp_eq M.kernel attrs strs) (fun _ _ => failsBare_configLangSetUp)
      fun _ => leavesMade_writeConfigStrs

lemma createsCleanly_usbgCreateFunction (hgrants : ∀ p, M.Grants (.rmdir p)) (hrooted : Rooted w.tree)
    (hlinks : LinksAlive w.tree) (hclean : g.dir.Clean) {type : FunctionType} {inst : CStr}
    {attrs : Option FunctionAttrs} :
    CreatesCleanly (fun g => g) (usbgCreateFunction M.kernel (functionOps M.kernel) type inst attrs) (w, g) ↔
      SetUpClean (makeFunctionDir M.kernel type inst) (functionSetUp (functionOps M.kernel) attrs)
        (fun func => func.dir ++ [[]]) (w, g) := by
  rw [usbgCreateFunction_eq]
  refine createsCleanly_iff ((makeFunctionDir_ends hclean hrooted hlinks).mono
    (fun _ _ h => ⟨h, cleansUp_usbgRmDir (hgrants _)⟩) fun _ _ h => h) ?_
  intro func c t
  trivial

end Main

/-- When a constructor that fails leaves nothing behind: with two numbers always; for a gadget or a configuration
with strings when no write fails in a language directory that had to be made; and for a function when its
attributes are set without a failure, or the failure comes with nothing made and the path of the directory,
with a slash at its end, is not too long. -/
theorem failedCreations (M : Machine) (w : World Fs) (hgrants : ∀ p, M.Grants (.rmdir p)) (hrooted : Rooted w.tree)
    (hlinks : LinksAlive w.tree) :
    (∀ s : State, s.path.Clean → w.tree.IsDir s.path → ∀ name,
        (∀ attrs strs, CreatesCleanly State.gadgets (usbgCreateGadget M.kernel name attrs strs) (w, s) ↔
          StringsWritten (makeGadgetDir M.kernel name) (gadgetLangSetUp M.kernel attrs strs)
            (writeGadgetStrs M.kernel strs) Gadget.dir (w, s)) ∧
        ∀ idVendor idProduct,
          CreatesCleanly State.gadgets (usbgCreateGadgetVidPid M.kernel name idVendor idProduct) (w, s)) ∧
      ∀ g : Gadget, g.dir.Clean →
        (∀ n label attrs strs, CreatesCleanly (fun g => g) (usbgCreateConfig M.kernel n label attrs strs) (w, g) ↔
          StringsWritten (makeConfigDir M.kernel n label) (configLangSetUp M.kernel attrs strs)
            (writeConfigStrs M.kernel strs) Config.dir (w, g)) ∧
        ∀ type inst attrs,
          CreatesCleanly (fun g => g) (usbgCreateFunction M.kernel (functionOps M.kernel) type inst attrs) (w, g) ↔
            SetUpClean (makeFunctionDir M.kernel type inst) (functionSetUp (functionOps M.kernel) attrs)
              (fun func => func.dir ++ [[]]) (w, g) := by
  constructor
  · intro s hclean hdir name
    exact ⟨fun _ _ => createsCleanly_usbgCreateGadget hgrants hrooted hlinks hclean hdir,
      createsCleanly_usbgCreateGadgetVidPid hgrants hrooted hlinks hclean hdir name⟩
  · intro g hclean
    exact ⟨fun _ _ _ _ => createsCleanly_usbgCreateConfig hgrants hrooted hlinks hclean,
      fun _ _ _ => createsCleanly_usbgCreateFunction hgrants hrooted hlinks hclean⟩

/-- A tree without gadgets. -/
def noGadgets : Tree :=
  FileTree.addAll .empty [(["/c".toList], .dir false), (["/c".toList, gadgetsDir], .dir false)]

/-- The state that belongs to it. -/
def noGadgetsState : State where
  path := ["/c".toList, gadgetsDir]
  configfsPath := "/c".toList
  gadgets := []
  udcs := []
  lastFailedImport := none

/-- A kernel that puts the files of a gadget and of its strings into new directories, and fails to write the
product. -/
def productFails : Machine where
  groups p :=
    match p with
    | [_, _, _] => [([stringsDir], none), ([udcFile], some [])]
    | [_, _, _, _, _] => [(["manufacturer".toList], some []), (["product".toList], some [])]
    | _ => []
  fault _ c :=
    match c with
    | .write p _ => if "product".toList ∈ p then some .eio else none
    | _ => none
  stale _ := []

/-- A gadget with a vendor, a product and no strings. -/
theorem failedCreations_noGadgets :
    CreatesCleanly State.gadgets (usbgCreateGadgetVidPid productFails.kernel "g".toList 1 2)
      (worldOf noGadgets, noGadgetsState) :=
  ((failedCreations productFails (worldOf noGadgets) (fun _ _ => rfl) (rooted_of_entries (by decide +kernel))
    (linksAlive_of_entries (by decide +kernel))).1 noGadgetsState ⟨by decide, by decide⟩ (by decide +kernel)
      "g".toList).2 1 2

lemma not_createsCleanly {lists : σ → L} {m : On Fs σ α} {t : World Fs × σ} {e : UsbgError} {q : Path}
    (hfail : (m t).1 = .fail e) (hbefore : ¬ t.1.tree.IsDir q) (hafter : (m t).2.1.tree.IsDir q) :
    ¬ CreatesCleanly lists m t := by
  intro h
  rw [CreatesCleanly] at h
  rcases hm : m t with ⟨_ | _ | _, t'⟩
  · rw [hm] at hfail
    cases hfail
  · rw [hm] at h hafter
    exact hbefore ((h.1 q).mp hafter)
  · rw [hm] at hfail
    cases hfail

/-- The strings of the gadget that cannot be created. -/
def someStrs : GadgetStrs where
  manufacturer := some "m".toList
  product := some "p".toList
  serial := none

/-- The product cannot be written: the directory of the gadget stays, with that of the language in it. -/
theorem failedCreations_fails :
    ¬ CreatesCleanly State.gadgets (usbgCreateGadget productFails.kernel "g".toList none (some someStrs))
      (worldOf noGadgets, noGadgetsState) :=
  not_createsCleanly (e := .io) (q := ["/c".toList, gadgetsDir, "g".toList]) (by decide +kernel) (by decide +kernel)
    (by decide +kernel)

end Libusbgx
