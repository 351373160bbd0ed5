import Libusbgx.Source.Import

/-!
# The import of OS descriptors

The import of an OS descriptor section returns success although it has not applied the section when
the configuration is no number, when the link to it cannot be made, and when the boolean `use` is a
larger number than 1.
-/

namespace Libusbgx

open Prog

variable {κ : Type} {K : Kernel κ} {root : Setting} {g : Gadget} {w : World κ}

/-! ## What a section asks for -/

/-- The member is left out, or it is an integer from 0 to `max`. -/
def IntMember (root : Setting) (name : CStr) (max : ℤ) : Prop :=
  ∀ node, root.getMember name = some node → ∃ v, node = .int v ∧ 0 ≤ v ∧ v ≤ max

/-- The member is left out, or it is a string. -/
def StringMember (root : Setting) (name : CStr) : Prop :=
  ∀ node, root.getMember name = some node → ∃ s, node = .string s

/-- The descriptors of a section: what is left out is 0 or the null pointer. -/
def osDescsOf (root : Setting) : GadgetOsDescs where
  use := ((root.getMember "use".toList).map Setting.getInt).getD 0 ≠ 0
  bVendorCode :=
    UInt8.ofNat (((root.getMember "b_vendor_code".toList).map Setting.getInt).getD 0).toNat
  qwSign := (root.getMember "qw_sign".toList).bind Setting.getString

/-- The writing of `use`, `b_vendor_code` and `qw_sign`: how it ends, and the world it leaves. -/
def writeOsDescs (K : Kernel κ) (root : Setting) (g : Gadget) (w : World κ) :
    Outcome UsbgError Unit × World κ :=
  usbgSetGadgetOsDescs K g (osDescsOf root) w

/-- The link to the configuration is created after that. -/
def OsDescLinked (K : Kernel κ) (root : Setting) (g : Gadget) (w : World κ) (c : Config) : Prop :=
  (usbgSetOsDescConfig K (some c.addr) ((writeOsDescs K root g w).2, g)).1 = .ok ()

/-- The members have the types and ranges of their fields, the writes succeed, and a configuration
that is asked for exists and is linked. -/
structure OsDescsApplied (K : Kernel κ) (root : Setting) (g : Gadget) (w : World κ) : Prop where
  use : IntMember root "use".toList 1
  bVendorCode : IntMember root "b_vendor_code".toList 255
  qwSign : StringMember root "qw_sign".toList
  written : (writeOsDescs K root g w).1 = .ok ()
  linked : ∀ node, root.getMember "config_id".toList = some node →
    ∃ v c, node = .int v ∧ usbgGetConfig g v none = some c ∧ OsDescLinked K root g w c

/-- The import reports success just when the section was applied. -/
def OsDescsReported (K : Kernel κ) (root : Setting) (g : Gadget) (w : World κ) : Prop :=
  (usbgImportGadgetOsDescs K root (w, g)).1 = .ok () ↔ OsDescsApplied K root g w

/-- The section is refused before anything is written, or a write fails, or there is no such
configuration; or nothing is left that can go wrong unseen: `use` is 0 or 1, and no configuration is
asked for or the link to it is created. -/
def OsDescsSeen (K : Kernel κ) (root : Setting) (g : Gadget) (w : World κ) : Prop :=
  ¬ IntMember root "use".toList 255 ∨ ¬ IntMember root "b_vendor_code".toList 255 ∨
  ¬ StringMember root "qw_sign".toList ∨ (writeOsDescs K root g w).1 ≠ .ok () ∨
  (∃ v, root.getMember "config_id".toList = some (.int v) ∧ usbgGetConfig g v none = none) ∨
  IntMember root "use".toList 1 ∧ (root.getMember "config_id".toList = none ∨
    ∃ v c, root.getMember "config_id".toList = some (.int v) ∧ usbgGetConfig g v none = some c ∧
      OsDescLinked K root g w c)

/-! ## The checks -/

lemma isInt_eq_true {node : Setting} : node.isInt = true ↔ ∃ v, node = .int v := by
  cases node <;> simp [Setting.isInt]

lemma isString_eq_true {node : Setting} : node.isString = true ↔ ∃ s, node = .string s := by
  cases node <;> simp [Setting.isString]

/-- A number in range is taken over. -/
lemma getOptionalGadgetAttr_of (name : CStr) (h : IntMember root name 255) :
    getOptionalGadgetAttr 1 root name = .ok ((root.getMember name).map Setting.getInt) := by
  rw [getOptionalGadgetAttr]
  cases hnode : root.getMember name with
  | none => rfl
  | some node =>
    obtain ⟨v, rfl, h0, h255⟩ := h node hnode
    dsimp only
    rw [if_neg (by simp [Setting.isInt]), if_neg (by simp only [Setting.getInt]; omega)]
    rfl

/-- Anything else is refused. -/
lemma getOptionalGadgetAttr_of_not (name : CStr) (h : ¬ IntMember root name 255) :
    ∃ e, getOptionalGadgetAttr 1 root name = .error e := by
  rw [getOptionalGadgetAttr]
  cases hnode : root.getMember name with
  | none => exact absurd (fun node h => by rw [hnode] at h; cases h) h
  | some node =>
    dsimp only
    by_cases hint : node.isInt = true
    · obtain ⟨v, rfl⟩ := isInt_eq_true.mp hint
      have hrange : ¬ (0 ≤ v ∧ v ≤ 255) := by
        rintro ⟨h0, h255⟩
        refine h fun node hnode' => ?_
        obtain rfl := Option.some.inj (hnode.symm.trans hnode')
        exact ⟨v, rfl, h0, h255⟩
      rw [if_neg (by simp [Setting.isInt]), if_pos (by simp only [Setting.getInt]; omega)]
      exact ⟨_, rfl⟩
    · rw [if_pos hint]
      exact ⟨_, rfl⟩

lemma getOptionalQwSign_of (h : StringMember root "qw_sign".toList) :
    getOptionalQwSign root = .ok ((root.getMember "qw_sign".toList).bind Setting.getString) := by
  rw [getOptionalQwSign]
  cases hnode : root.getMember "qw_sign".toList with
  | none => rfl
  | some node =>
    obtain ⟨s, rfl⟩ := h node hnode
    rfl

lemma getOptionalQwSign_of_not (h : ¬ StringMember root "qw_sign".toList) :
    ∃ e, getOptionalQwSign root = .error e := by
  rw [getOptionalQwSign]
  cases hnode : root.getMember "qw_sign".toList with
  | none => exact absurd (fun node h => by rw [hnode] at h; cases h) h
  | some node =>
    dsimp only
    by_cases hstr : node.isString = true
    · refine absurd (fun node' hnode' => ?_) h
      obtain rfl := Option.some.inj (hnode.symm.trans hnode')
      exact isString_eq_true.mp hstr
    · rw [if_pos hstr]
      exact ⟨_, rfl⟩

/-! ## The import -/

/-- A section that is not refused is written, and the configuration is linked after that. -/
lemma usbgImportGadgetOsDescs_eq (huse : IntMember root "use".toList 255)
    (hcode : IntMember root "b_vendor_code".toList 255) (hsign : StringMember root "qw_sign".toList) :
    usbgImportGadgetOsDescs K root (w, g) =
      (attempt (io (usbgSetGadgetOsDescs K g (osDescsOf root))) >>= importOsDescConfig K root) (w, g) := by
  rw [usbgImportGadgetOsDescs, getOptionalGadgetAttr_of _ huse, getOptionalGadgetAttr_of _ hcode,
    getOptionalQwSign_of hsign]
  rfl

lemma IntMember.mono {name : CStr} {m n : ℤ} (h : IntMember root name m) (hmn : m ≤ n) :
    IntMember root name n := by
  intro node hnode
  obtain ⟨v, rfl, h0, hm⟩ := h node hnode
  exact ⟨v, rfl, h0, hm.trans hmn⟩

/-- A section that is refused is an error. -/
lemma usbgImportGadgetOsDescs_refused (h : ¬ (IntMember root "use".toList 255 ∧
      IntMember root "b_vendor_code".toList 255 ∧ StringMember root "qw_sign".toList)) :
    (usbgImportGadgetOsDescs K root (w, g)).1 ≠ .ok () := by
  rw [usbgImportGadgetOsDescs]
  by_cases huse : IntMember root "use".toList 255
  · rw [getOptionalGadgetAttr_of _ huse]
    by_cases hcode : IntMember root "b_vendor_code".toList 255
    · rw [getOptionalGadgetAttr_of _ hcode]
      obtain ⟨e, he⟩ := getOptionalQwSign_of_not fun hsign => h ⟨huse, hcode, hsign⟩
      rw [he]
      simp
    · obtain ⟨e, he⟩ := getOptionalGadgetAttr_of_not _ hcode
      rw [he]
      simp
  · obtain ⟨e, he⟩ := getOptionalGadgetAttr_of_not _ huse
    rw [he]
    simp

/-- The configuration that was found is there to be linked. -/
lemma usbgSetOsDescConfig_ne_undef {v : ℤ} {c : Config} (h : usbgGetConfig g v none = some c) :
    (usbgSetOsDescConfig K (some c.addr) (w, g)).1 ≠ .undef := by
  obtain ⟨conf, hconf⟩ : ∃ conf, g.config? c.addr = some conf :=
    Option.isSome_iff_exists.mp
      (List.find?_isSome.mpr ⟨c, List.mem_of_find?_eq_some h, decide_eq_true rfl⟩)
  have hends : Ends (fun _ _ => True) (fun _ _ => True) False
      (usbgSetOsDescConfig K (some c.addr) (w, g)) := by
    rw [usbgSetOsDescConfig, self_bind_apply]
    refine Ends.require_bind (fun _ => ?_) fun _ => trivial
    rw [usbgCreateOsDescLink, self_bind_apply, hconf, deref_some, pure_bind]
    refine Ends.require_bind (fun _ => ?_) fun _ => trivial
    refine Ends.require_bind (fun _ => ?_) fun _ => trivial
    refine Ends.bind (R := fun _ _ => True) (ends_io ?_) fun _ _ _ => trivial
    rw [call]
    split <;> trivial
  intro hundef
  rcases hrun : usbgSetOsDescConfig K (some c.addr) (w, g) with ⟨_ | _ | _, s⟩ <;>
    rw [hrun] at hends hundef
  · cases hundef
  · cases hundef
  · exact hends

/-- What was an error before the configuration stays one. -/
lemma importOsDescConfig_error (e : UsbgError) (s : World κ × Gadget) :
    (importOsDescConfig K root (.error e) s).1 ≠ .ok () := by
  rw [importOsDescConfig]
  cases root.getMember "config_id".toList with
  | none => simp
  | some node =>
    dsimp only
    by_cases hint : node.isInt = true
    · rw [if_neg (not_not_intro hint), self_bind_apply]
      cases usbgGetConfig s.2 node.getInt none with
      | none => simp
      | some c =>
        dsimp only
        rw [bind_apply, attempt_apply]
        rcases usbgSetOsDescConfig K (some c.addr) s with ⟨_ | _ | _, t⟩ <;> simp
    · rw [if_pos hint]
      simp

/-- What was a success before the configuration stays one, unless a number is given for which there
is no configuration. -/
lemma importOsDescConfig_ok (w : World κ) (g : Gadget) :
    (importOsDescConfig K root (.ok ()) (w, g)).1 = .ok () ↔
      ¬ ∃ v, root.getMember "config_id".toList = some (.int v) ∧ usbgGetConfig g v none = none := by
  rw [importOsDescConfig]
  cases hnode : root.getMember "config_id".toList with
  | none => simp
  | some node =>
    dsimp only
    by_cases hint : node.isInt = true
    · obtain ⟨v, rfl⟩ := isInt_eq_true.mp hint
      rw [if_neg (by simp [hint]), self_bind_apply]
      cases hc : usbgGetConfig g v none with
      | none => simp [Setting.getInt, hc]
      | some c =>
        have hdef := usbgSetOsDescConfig_ne_undef (K := K) (w := w) hc
        simp only [Setting.getInt, hc]
        rw [bind_apply, attempt_apply]
        rcases hset : usbgSetOsDescConfig K (some c.addr) (w, g) with ⟨_ | _ | _, t⟩
        · simp [hc]
        · simp [hc]
        · rw [hset] at hdef
          exact absurd rfl hdef
    · rw [if_pos hint]
      have hne : ∀ v, node ≠ .int v := fun v h => hint (isInt_eq_true.mpr ⟨v, h⟩)
      simp [hne]

/-- The import of an OS descriptor section reports success just for the sections that are applied,
exactly when nothing goes wrong in the places that the result does not cover. -/
theorem osDescsReported_iff (K : Kernel κ) (root : Setting) (g : Gadget) (w : World κ) :
    OsDescsReported K root g w ↔ OsDescsSeen K root g w := by
  -- a member that is refused is reported; otherwise the files have been written
  by_cases haccept : IntMember root "use".toList 255 ∧ IntMember root "b_vendor_code".toList 255 ∧
      StringMember root "qw_sign".toList
  · obtain ⟨huse, hcode, hsign⟩ := haccept
    rw [OsDescsReported, OsDescsSeen, usbgImportGadgetOsDescs_eq huse hcode hsign,
      or_iff_right (not_not_intro huse), or_iff_right (not_not_intro hcode),
      or_iff_right (not_not_intro hsign)]
    -- the result of the link to the configuration replaces that of the files
    rcases hwritten : writeOsDescs K root g w with ⟨_ | e | _, w'⟩
    · have hio : io (usbgSetGadgetOsDescs K g (osDescsOf root)) (w, g) = (.ok (), (w', g)) :=
        io_ok hwritten
      rw [bind_ok (attempt_ok hio), importOsDescConfig_ok, or_iff_right (by simp)]
      by_cases hmissing :
          ∃ v, root.getMember "config_id".toList = some (.int v) ∧ usbgGetConfig g v none = none
      · refine iff_of_true (iff_of_false (not_not_intro hmissing) fun h => ?_) (.inl hmissing)
        obtain ⟨v, hnode, hnone⟩ := hmissing
        obtain ⟨v', c, hv, hc, -⟩ := h.linked _ hnode
        obtain rfl := Setting.int.inj hv
        rw [hnone] at hc
        cases hc
      · rw [or_iff_right hmissing]
        constructor
        · intro h
          have happlied := h.mp hmissing
          refine ⟨happlied.use, ?_⟩
          cases hnode : root.getMember "config_id".toList with
          | none => exact .inl rfl
          | some node =>
            obtain ⟨v, c, rfl, hc, hlink⟩ := happlied.linked _ hnode
            exact .inr ⟨v, c, rfl, hc, hlink⟩
        · rintro ⟨huse1, hconfig⟩
          refine iff_of_true hmissing ⟨huse1, hcode, hsign, by rw [hwritten], fun node hnode => ?_⟩
          rcases hconfig with hnone | ⟨v, c, hv, hc, hlink⟩
          · rw [hnone] at hnode
            cases hnode
          · obtain rfl := Option.some.inj (hv.symm.trans hnode)
            exact ⟨v, c, rfl, hc, hlink⟩
    · have hio : io (usbgSetGadgetOsDescs K g (osDescsOf root)) (w, g) = (.fail e, (w', g)) :=
        io_fail hwritten
      rw [bind_ok (attempt_fail hio)]
      refine iff_of_true (iff_of_false (importOsDescConfig_error e _) fun h => ?_) (.inl (by simp))
      have := h.written
      rw [hwritten] at this
      cases this
    · have hio : io (usbgSetGadgetOsDescs K g (osDescsOf root)) (w, g) = (.undef, (w', g)) :=
        io_undef hwritten
      have hattempt : attempt (io (usbgSetGadgetOsDescs K g (osDescsOf root))) (w, g) =
          (.undef, (w', g)) := by rw [attempt_apply, hio]
      rw [bind_undef hattempt]
      refine iff_of_true (iff_of_false (by simp) fun h => ?_) (.inl (by simp))
      have := h.written
      rw [hwritten] at this
      cases this
  · have hrefused := usbgImportGadgetOsDescs_refused (K := K) (w := w) (g := g) haccept
    refine iff_of_true (iff_of_false hrefused fun h => haccept ?_) ?_
    · exact ⟨h.use.mono (by decide), h.bVendorCode, h.qwSign⟩
    · by_contra hseen
      simp only [OsDescsSeen, not_or, not_not] at hseen
      exact haccept ⟨hseen.1, hseen.2.1, hseen.2.2.1⟩

/-- A system on which every call succeeds. -/
def obliging : Kernel Unit where
  call c _ :=
    match c with
    | .opendir _ | .write _ _ | .mkdir _ | .rmdir _ | .unlink _ | .symlink _ _ | .stat _ | .remove _ =>
      (.ok (), ())
    | .scandir _ | .nftw _ => (.ok [], ())
    | .readlink _ | .read _ => (.ok [], ())
  stale _ := []

/-- A gadget without configurations. -/
def bareGadget : Gadget :=
  .allocated 0 ["/config".toList, gadgetsDir] "g".toList

/-- A section whose configuration is no number. -/
def textualConfigId : Setting :=
  .group [("qw_sign".toList, .string "MSFT100".toList), ("config_id".toList, .string "1".toList)]

/-- The section is imported with success, without its configuration. -/
theorem osDescsReported_fails : ¬ OsDescsReported obliging textualConfigId bareGadget ⟨(), 0⟩ := by
  intro h
  have hrun : (usbgImportGadgetOsDescs obliging textualConfigId (⟨(), 0⟩, bareGadget)).1 = .ok () := by
    decide +kernel
  obtain ⟨v, c, hv, -⟩ := (h.mp hrun).linked (.string "1".toList) (by rfl)
  cases hv

end Libusbgx
