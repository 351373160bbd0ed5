import Libusbgx.Attributes.Files
import Libusbgx.Base.Aligned

/-!
# Report descriptors

A report descriptor is any string of bytes.  The getter reads no more of it than fits in a short
buffer, and the nodes that stand for it in a scheme are written as signed and read as unsigned
bytes.
-/

namespace Libusbgx

open Prog

variable {κ : Type} {K : Kernel κ}

/-! ## The file -/

/-- A file holds what has been written to it. -/
def Kernel.KeepsFiles (K : Kernel κ) : Prop :=
  ∀ p data s s', K.call (.write p data) s = (.ok (), s') → (K.call (.read p) s').1 = .ok data

/-- The descriptor is read back as it was set. -/
def ReportReadBack (K : Kernel κ) (f : Func) (desc : CStr) (w : World κ) : Prop :=
  (usbgFHidGetReportDesc K f w).1 = .ok (.reportDesc desc)

/-- A descriptor that was written is in the file afterwards. -/
lemma hidSetReport_ok (hK : K.KeepsFiles) {path : Path} {name attr desc : CStr} (hdesc : desc ≠ [])
    {w w' : World κ} (h : hidSetReport K path name attr desc w = (.ok (), w')) :
    (path ++ [name, attr]).Fits ∧ (K.call (.read (path ++ [name, attr])) w'.sys).1 = .ok desc := by
  rw [hidSetReport, if_neg hdesc, usbgWriteBuf] at h
  by_cases hfits : (path ++ [name, attr]).Fits
  · rw [require_of hfits, pure_bind, call] at h
    rcases hcall : K.call (.write (path ++ [name, attr]) desc) w.sys with ⟨_ | ⟨⟨⟩⟩, s'⟩
    · rw [hcall] at h
      cases h
    · rw [hcall] at h
      cases h
      exact ⟨hfits, hK _ _ _ _ hcall⟩
  · rw [require_of_not hfits] at h
    cases h

lemma usbgFHidGetReportDesc_of_read {f : Func} {desc : CStr} {w : World κ}
    (hfits : (f.path ++ [f.name, hidReportDesc.name]).Fits)
    (hread : (K.call (.read (f.path ++ [f.name, hidReportDesc.name])) w.sys).1 = .ok desc) :
    (usbgFHidGetReportDesc K f w).1 = .ok (.reportDesc (desc.take usbgMaxStrLength)) := by
  have hbuf := usbgReadBufLimited_of_read usbgMaxStrLength hfits hread
  rcases hrun : usbgReadBufLimited K f.path f.name hidReportDesc.name usbgMaxStrLength w with ⟨r, w'⟩
  rw [hrun] at hbuf
  obtain rfl : r = .ok (desc.take usbgMaxStrLength) := hbuf
  have hget : hidGetReport K f.path f.name hidReportDesc.name w =
      (.ok (desc.take usbgMaxStrLength), w') := hrun
  show ((hidGetReport K f.path f.name hidReportDesc.name >>= fun d => pure (AttrVal.reportDesc d)) w).1 = _
  rw [bind_ok hget]
  rfl

/-- What the getter makes of a descriptor that has been set. -/
lemma usbgFHidGetReportDesc_of_set (hK : K.KeepsFiles) {f : Func} {desc : CStr} (hdesc : desc ≠ [])
    {w w' : World κ} (hset : usbgFHidSetReportDesc K f desc w = (.ok (), w')) :
    (usbgFHidGetReportDesc K f w').1 = .ok (.reportDesc (desc.take usbgMaxStrLength)) := by
  obtain ⟨hfits, hread⟩ := hidSetReport_ok hK hdesc hset
  exact usbgFHidGetReportDesc_of_read hfits hread

lemma not_reportReadBack (hK : K.KeepsFiles) {f : Func} {desc : CStr}
    (hlong : usbgMaxStrLength < desc.length) {w w' : World κ}
    (hset : usbgFHidSetReportDesc K f desc w = (.ok (), w')) : ¬ ReportReadBack K f desc w' := by
  have hdesc : desc ≠ [] := by
    rintro rfl
    simp at hlong
  rw [ReportReadBack, usbgFHidGetReportDesc_of_set hK hdesc hset]
  simp only [Outcome.ok.injEq, AttrVal.reportDesc.injEq]
  intro htake
  have hlen := (List.take_eq_self_iff desc).mp htake
  omega

/-- A descriptor is read back exactly when it fits in the buffer of the helper that reads it. -/
theorem reportReadBack_iff (hK : K.KeepsFiles) (f : Func) (desc : CStr) (hmin : 1 ≤ desc.length)
    {w w' : World κ} (hset : usbgFHidSetReportDesc K f desc w = (.ok (), w')) :
    ReportReadBack K f desc w' ↔ desc.length ≤ usbgMaxStrLength := by
  constructor
  · intro hread
    by_contra hlong
    exact not_reportReadBack hK (by omega) hset hread
  · intro hshort
    have hdesc : desc ≠ [] := List.ne_nil_of_length_pos hmin
    rw [ReportReadBack, usbgFHidGetReportDesc_of_set hK hdesc hset, List.take_of_length_le hshort]

/-! ## An example -/

/-- A willing kernel keeps what is written to its files. -/
lemma willing_keepsFiles : willing.kernel.KeepsFiles := by
  intro p data s s' h
  have hwrite : Machine.writeFile s.tree p.resolve data = .ok s'.tree := by
    rcases hexec : Machine.writeFile s.tree p.resolve data with e | T
    · simp [Machine.kernel, willing, Machine.exec, hexec, Except.map] at h
    · simp only [Machine.kernel, willing, Machine.exec, hexec, Except.map, Prod.mk.injEq, true_and] at h
      rw [← h]
  obtain ⟨⟨content, hfile⟩, ht⟩ := Machine.writeFile_eq_ok.mp hwrite
  have hget : s'.tree.get p.resolve = some (.file data) := by
    rw [ht, FileTree.get_replace, if_pos rfl, hfile]
    rfl
  simp [Machine.kernel, willing, Machine.exec, Machine.readFile, hget, Except.map]

/-- The directory of a HID function. -/
def hidDir : Path := ["/c".toList, gadgetsDir, "g".toList, functionsDir, "hid.0".toList]

/-- A HID function. -/
def hidFunc : Func := plainFunc .hid

/-- Its directory, with the file of the descriptor. -/
def hidWorld : World Fs where
  sys :=
    { tree := FileTree.addAll .empty
        [(hidDir, .dir true), (hidDir ++ ["report_desc".toList], .file [])]
      log := [] }
  next := 1

/-- A descriptor with a NUL and a newline. -/
def shortDesc : CStr := ['\x05', '\x00', '\n', '\xff']

/-- A descriptor of one byte more than the buffer of the helper takes. -/
def longDesc : CStr := List.replicate 257 '\x05'

lemma hidSet_shortDesc : (usbgFHidSetReportDesc willing.kernel hidFunc shortDesc hidWorld).1 = .ok () := by
  decide +kernel

lemma hidSet_longDesc : (usbgFHidSetReportDesc willing.kernel hidFunc longDesc hidWorld).1 = .ok () := by
  decide +kernel

/-- The short descriptor is read back. -/
theorem reportReadBack_shortDesc :
    ReportReadBack willing.kernel hidFunc shortDesc
      (usbgFHidSetReportDesc willing.kernel hidFunc shortDesc hidWorld).2 :=
  (reportReadBack_iff willing_keepsFiles hidFunc shortDesc (by decide)
    (Prod.ext hidSet_shortDesc rfl)).mpr (by decide)

/-- The long one is not. -/
theorem reportReadBack_fails :
    (usbgFHidSetReportDesc willing.kernel hidFunc longDesc hidWorld).1 = .ok () ∧
      1 ≤ longDesc.length ∧ longDesc.length ≤ usbgMaxFileSize ∧
      ¬ ReportReadBack willing.kernel hidFunc longDesc
        (usbgFHidSetReportDesc willing.kernel hidFunc longDesc hidWorld).2 := by
  have hmin : 1 ≤ longDesc.length := by decide +kernel
  have hmax : longDesc.length ≤ usbgMaxFileSize := by decide +kernel
  have hlong : usbgMaxStrLength < longDesc.length := by decide +kernel
  exact ⟨hidSet_longDesc, hmin, hmax,
    not_reportReadBack willing_keepsFiles hlong (Prod.ext hidSet_longDesc rfl)⟩

/-! ## The nodes -/

/-- The bytes as the characters of a descriptor. -/
def byteString (d : List UInt8) : CStr := d.map fun b => Char.ofNat b.toNat

/-- The nodes written for the bytes are read as the same bytes. -/
def ReportDecodes (d : List UInt8) : Prop :=
  ∀ (root : Members) (name : CStr), name ∉ root.map Prod.fst →
    ∃ root', hidSetConfigNodeReport root name (byteString d) = .ok root' ∧
      hidGetConfigNodeReport (.group root') name = .ok (some (byteString d))

/-- The nodes of a list are written again for the bytes they are read as. -/
def ReportReencodes (nodes : List Setting) : Prop :=
  ∀ (root : Members) (name desc : CStr), name ∉ root.map Prod.fst →
    hidGetConfigNodeReport (.group [(name, .list nodes)]) name = .ok (some desc) →
      hidSetConfigNodeReport root name desc = .ok (root ++ [(name, .list nodes)])

/-- The nodes of a list as the decoder takes them. -/
lemma hidGetConfigNodeReport_eq_some {root : Setting} {name desc : CStr} {nodes : List Setting}
    (h : root.getMember name = some (.list nodes)) :
    hidGetConfigNodeReport root name = .ok (some desc) ↔
      List.Forall₂ (fun node c => reportByte node = .ok c) nodes desc := by
  rw [hidGetConfigNodeReport, h, ← mapM_eq_ok_iff]
  simp only [Setting.isList, if_true, Setting.elems]
  cases nodes.mapM reportByte <;> simp [Except.map]

lemma toNat_byteChar (b : UInt8) : (Char.ofNat b.toNat).toNat = b.toNat := by
  have key : ∀ n < 256, (Char.ofNat n).toNat = n := by decide +kernel
  exact key b.toNat b.toNat_lt

lemma bmod_of_lt {n : ℕ} (h : n < 128) : Int.bmod n 256 = n := by
  have hmod := Int.bmod_def n 256
  omega

lemma bmod_of_le {n : ℕ} (h : 128 ≤ n) (h' : n < 256) : Int.bmod n 256 = n - 256 := by
  rw [Int.bmod_def]
  norm_num
  omega

lemma charToInt_of_lt {c : Char} (h : c.toNat < 128) : charToInt c = c.toNat := bmod_of_lt h

lemma charToInt_of_le {c : Char} (h : 128 ≤ c.toNat) (h' : c.toNat < 256) :
    charToInt c = c.toNat - 256 :=
  bmod_of_le h h'

lemma reportByte_eq_ok {node : Setting} {c : Char} :
    reportByte node = .ok c ↔
      node.isInt = true ∧ 0 ≤ node.getInt ∧ node.getInt ≤ 255 ∧ c = Char.ofNat node.getInt.toNat := by
  rw [reportByte]
  split_ifs with hint hrange
  · simp only [hint, false_iff]
    omega
  · simp only [Except.ok.injEq, hint, true_and, eq_comm (a := c)]
    constructor
    · intro h
      exact ⟨by omega, by omega, h⟩
    · intro h
      exact h.2.2
  · simp [hint]

/-- The node written for a byte is read as this byte unless its number is negative. -/
lemma reportByte_charToInt (b : UInt8) :
    reportByte (.int (charToInt (Char.ofNat b.toNat))) = .ok (Char.ofNat b.toNat) ↔ b < 128 := by
  have hb : b.toNat < 256 := b.toNat_lt
  have hc := toNat_byteChar b
  rw [reportByte_eq_ok, UInt8.lt_iff_toNat_lt]
  constructor
  · rintro ⟨-, hpos, -, -⟩
    by_contra hlarge
    rw [Setting.getInt, charToInt_of_le (by rw [hc]; exact not_lt.mp hlarge) (by omega)] at hpos
    omega
  · intro hsmall
    have hv := charToInt_of_lt (c := Char.ofNat b.toNat) (by rw [hc]; exact hsmall)
    rw [Setting.getInt, hv, hc]
    exact ⟨rfl, by omega, by omega, rfl⟩

/-- The node written for a decoded byte is the one it was decoded from unless its number is that of
a negative character. -/
lemma charToInt_of_reportByte {node : Setting} {c : Char} (h : reportByte node = .ok c) :
    Setting.int (charToInt c) = node ↔ node.getInt < 128 := by
  obtain ⟨hint, hpos, hmax, rfl⟩ := reportByte_eq_ok.mp h
  obtain ⟨v, rfl⟩ : ∃ v, node = .int v := by
    cases node with
    | int v => exact ⟨v, rfl⟩
    | _ => cases hint
  rw [Setting.getInt] at hpos hmax ⊢
  obtain ⟨n, rfl⟩ := Int.eq_ofNat_of_zero_le hpos
  have hc : (Char.ofNat n).toNat = n := by
    have hn := toNat_byteChar (UInt8.ofNat n)
    rwa [UInt8.toNat_ofNat_of_lt' (by show n < 256; omega)] at hn
  rw [Int.toNat_natCast, Setting.int.injEq]
  constructor
  · intro heq
    by_contra hlarge
    rw [charToInt_of_le (by omega) (by omega), hc] at heq
    omega
  · intro hsmall
    rw [charToInt_of_lt (by omega), hc]

/-- The bytes of a descriptor are read back from their nodes one by one. -/
lemma reportDecodes_iff (d : List UInt8) : ReportDecodes d ↔ ∀ b ∈ d, b < 128 := by
  have hnodes : List.Forall₂ (fun node c => reportByte node = .ok c)
      ((byteString d).map fun c => .int (charToInt c)) (byteString d) ↔ ∀ b ∈ d, b < 128 := by
    rw [byteString, List.forall₂_map_left_iff, List.forall₂_same, List.forall_mem_map]
    exact forall₂_congr fun b _ => reportByte_charToInt b
  have hround : ∀ (root : Members) (name : CStr), name ∉ root.map Prod.fst →
      ((∃ root', hidSetConfigNodeReport root name (byteString d) = .ok root' ∧
        hidGetConfigNodeReport (.group root') name = .ok (some (byteString d))) ↔
          ∀ b ∈ d, b < 128) := by
    intro root name hname
    rw [hidSetConfigNodeReport, configSettingAdd_ok hname, ← hnodes,
      ← hidGetConfigNodeReport_eq_some (prefix_getMember _ hname List.prefix_rfl)]
    simp
  constructor
  · intro h
    exact (hround [] [] (by simp)).mp (h [] [] (by simp))
  · intro h root name hname
    exact (hround root name hname).mpr h

lemma reportReencodes_iff {nodes : List Setting} {desc : CStr}
    (h : List.Forall₂ (fun node c => reportByte node = .ok c) nodes desc) :
    ReportReencodes nodes ↔ ∀ node ∈ nodes, node.getInt < 128 := by
  have hnodes : desc.map (fun c => Setting.int (charToInt c)) = nodes ↔
      ∀ node ∈ nodes, node.getInt < 128 := by
    induction h with
    | nil => simp
    | cons hbyte _ ih =>
      rw [List.map_cons, List.cons.injEq, ih, charToInt_of_reportByte hbyte]
      simp
  have hread : ∀ (name desc' : CStr),
      hidGetConfigNodeReport (.group [(name, .list nodes)]) name = .ok (some desc') ↔ desc' = desc := by
    intro name desc'
    have hmember : (Setting.group [(name, .list nodes)]).getMember name = some (.list nodes) :=
      prefix_getMember [] (by simp) List.prefix_rfl
    rw [hidGetConfigNodeReport_eq_some hmember, ← mapM_eq_ok_iff, mapM_eq_ok_iff.mpr h, Except.ok.injEq,
      eq_comm]
  rw [← hnodes]
  constructor
  · intro hall
    have h := hall [] [] desc (by simp) ((hread [] desc).mpr rfl)
    rw [hidSetConfigNodeReport, configSettingAdd_ok (by simp)] at h
    simpa using h
  · rintro heq root name desc' hname hdecoded
    obtain rfl := (hread name desc').mp hdecoded
    rw [hidSetConfigNodeReport, configSettingAdd_ok hname, heq]

/-- Bytes are read back exactly when none of them is that of a negative character, and numbers are
written again under the same condition. -/
theorem reportCodec_iff (d : List UInt8) (nodes : List Setting) (desc : CStr)
    (h : List.Forall₂ (fun node c => reportByte node = .ok c) nodes desc) :
    (ReportDecodes d ↔ ∀ b ∈ d, b < 128) ∧
      (ReportReencodes nodes ↔ ∀ node ∈ nodes, node.getInt < 128) :=
  ⟨reportDecodes_iff d, reportReencodes_iff h⟩

/-- Small bytes and numbers agree in both directions. -/
theorem reportCodec_small : ReportDecodes [5, 1] ∧ ReportReencodes [.int 5, .int 1] := by
  have haccepted : List.Forall₂ (fun node c => reportByte node = .ok c) [Setting.int 5, Setting.int 1]
      [Char.ofNat 5, Char.ofNat 1] := .cons rfl (.cons rfl .nil)
  obtain ⟨hdecodes, hreencodes⟩ := reportCodec_iff [5, 1] _ _ haccepted
  exact ⟨hdecodes.mpr (by simp), hreencodes.mpr (by simp [Setting.getInt])⟩

/-- A byte of the upper half is written as a negative number, which is not read. -/
theorem reportCodec_fails : ¬ ReportDecodes [0x80] ∧ ¬ ReportReencodes [.int 128] := by
  constructor
  · rw [reportDecodes_iff]
    simp
  · have h : List.Forall₂ (fun node c => reportByte node = .ok c) [Setting.int 128] [Char.ofNat 128] :=
      .cons rfl .nil
    rw [reportReencodes_iff h]
    simp [Setting.getInt]

end Libusbgx
