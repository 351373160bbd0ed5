import Libusbgx.Attributes.Files
import Libusbgx.Source.Config
import Libusbgx.Source.Create

/-!
# Integers in files

The library writes integers in four formats, each with a newline behind the number, and reads them in the base
of the format.  What is written is read back, whatever is in the buffer of the reader behind the line; so the
attributes of a gadget and of a configuration that have been set are those that are got.
-/

namespace Libusbgx

open Prog Machine

/-! ## Formats -/

/-- The formats of `usbg_write_dec`, `usbg_write_hex`, `usbg_write_hex16` and `usbg_write_hex8`. -/
inductive IntFormat where
  | dec
  | hex
  | hex16
  | hex8
deriving DecidableEq, Repr

namespace IntFormat

/-- What `snprintf` makes of a number. -/
def print : IntFormat → ℤ → CStr
  | dec, v => printDec v ++ ['\n']
  | hex, v => "0x".toList ++ printHex 0 v ++ ['\n']
  | hex16, v => "0x".toList ++ printHex 4 v ++ ['\n']
  | hex8, v => "0x".toList ++ printHex 2 v ++ ['\n']

/-- The base in which it is read. -/
def base : IntFormat → ℕ
  | dec => 10
  | hex | hex16 | hex8 => 16

/-- The function that writes in the format. -/
def write {κ : Type} (K : Kernel κ) : IntFormat → Path → CStr → CStr → ℤ → Io κ Unit
  | dec => usbgWriteDec K
  | hex => usbgWriteHex K
  | hex16 => usbgWriteHex16 K
  | hex8 => usbgWriteHex8 K

variable {fmt : IntFormat} {v : ℤ}

lemma write_eq {κ : Type} (K : Kernel κ) (fmt : IntFormat) (path : Path) (name file : CStr) (v : ℤ) :
    fmt.write K path name file v = usbgWriteBuf K path name file (fmt.print v) := by
  cases fmt <;> rfl

/-- What is printed is read as the number, whatever follows it in the buffer. -/
lemma strtol_print (fmt : IntFormat) (hv : -2 ^ 31 ≤ v ∧ v < 2 ^ 31) (stale : CStr) :
    toInt (strtol fmt.base (ofBuffer ((fmt.print v).take usbgMaxStrLength ++ stale))).value = v := by
  cases fmt with
  | dec => exact strtol_written hv stale
  | hex => exact strtol_writtenHex (by omega) hv stale
  | hex16 => exact strtol_writtenHex (by omega) hv stale
  | hex8 => exact strtol_writtenHex (by omega) hv stale

end IntFormat

/-! ## One file -/

section Files

variable {M : Machine} {w w' : World Fs} {path : Path} {name file : CStr} {fmt : IntFormat} {v : ℤ} {α : Type}

/-- The kernel refuses to read no file. -/
def ReadsGranted (M : Machine) : Prop := ∀ p, M.Grants (.read p)

/-- Nothing but `a` is returned, and it is returned unless the kernel refuses to read a file. -/
def ReadsBack (M : Machine) (m : Io Fs α) (a : α) (w : World Fs) : Prop :=
  Ends (fun a' _ => a' = a) (fun _ _ => ¬ ReadsGranted M) False (m w)

/-- The file holds the number in the format. -/
def HoldsInt (path : Path) (name file : CStr) (fmt : IntFormat) (v : ℤ) (T : Tree) : Prop :=
  (path ++ [name, file]).Fits ∧ T.get (path ++ [name, file]).resolve = some (.file (fmt.print v))

/-- Different files of a directory are at different places. -/
lemma filePlace_ne {file' : CStr} (hne : file ≠ []) (hne' : file' ≠ []) (hfile : file' ≠ file) :
    (path ++ [name, file']).resolve ≠ (path ++ [name, file]).resolve := by
  have hplace : ∀ f : CStr, f ≠ [] → (path ++ [name, f]).resolve = (path ++ [name]).resolve ++ [f] := by
    intro f hf
    have hsplit : path ++ [name, f] = path ++ [name] ++ [f] := by simp
    rw [hsplit, Path.resolve_append (by simp)]
    simp [hf]
  rw [hplace file hne, hplace file' hne']
  simpa using hfile

/-- A file that has been written holds the number, and the other files of the directory hold theirs. -/
lemma write_ends (M : Machine) (fmt : IntFormat) (path : Path) (name file : CStr) (v : ℤ) (w : World Fs) :
    Ends (fun _ w' => HoldsInt path name file fmt v w'.tree ∧ ∀ file' fmt' v', file ≠ [] → file' ≠ [] → file' ≠ file →
        HoldsInt path name file' fmt' v' w.tree → HoldsInt path name file' fmt' v' w'.tree) (fun _ _ => True) False
      (fmt.write M.kernel path name file v w) := by
  rw [IntFormat.write_eq, usbgWriteBuf]
  refine Ends.require_bind (fun hfits => ?_) fun _ => trivial
  refine ends_write ?_ fun _ _ _ _ => trivial
  rintro w' ⟨content, hfile⟩ ht -
  refine ⟨⟨hfits, ?_⟩, fun file' fmt' v' hne hne' hother h => ⟨h.1, ?_⟩⟩
  · rw [ht, FileTree.get_replace, if_pos rfl, hfile]
    rfl
  · rw [ht, FileTree.get_replace, if_neg (filePlace_ne hne hne' hother)]
    exact h.2

/-- The number is read from a file that holds it. -/
lemma usbgReadInt_held (hv : -2 ^ 31 ≤ v ∧ v < 2 ^ 31) (h : HoldsInt path name file fmt v w.tree) :
    Ends (fun v' w' => v' = v ∧ w'.tree = w.tree) (fun _ _ => ¬ ReadsGranted M) False
      (usbgReadInt M.kernel path name file fmt.base w) := by
  obtain ⟨hfits, hfile⟩ := h
  refine Ends.bind (R := fun buf w' => buf = (fmt.print v).take usbgMaxStrLength ∧ w'.tree = w.tree) ?_ ?_
  · refine Ends.require_bind (fun _ => ?_) (absurd hfits)
    refine Ends.bind (R := fun content w' => content = fmt.print v ∧ w'.tree = w.tree) ?_ ?_
    · refine ends_call (c := .read (path ++ [name, file])) (fun content w' hexec _ => ?_) fun e w' hwhy _ _ hgranted => ?_
      · obtain ⟨hread, ht⟩ := exec_read.mp hexec
        have hheld := hfile.symm.trans (readFile_eq_ok.mp hread)
        exact ⟨(Node.file.inj (Option.some.inj hheld)).symm, ht⟩
      · -- a file that is there is read
        obtain ⟨errno, herror, -⟩ := hwhy (hgranted _)
        have hok : M.exec (.read (path ++ [name, file])) w.tree = .ok (fmt.print v, w.tree) :=
          exec_read.mpr ⟨readFile_eq_ok.mpr hfile, rfl⟩
        rw [hok] at herror
        cases herror
    · rintro _ w' ⟨rfl, ht⟩
      exact ⟨rfl, ht⟩
  · rintro _ w' ⟨rfl, ht⟩
    exact ⟨fmt.strtol_print hv _, ht⟩

end Files

/-! ## Several files -/

/-- A member of a structure that is kept in a file of its own. -/
structure IntField (σ : Type) where
  file : CStr
  format : IntFormat
  value : σ → ℤ

section Fields

variable {σ α : Type} {M : Machine} {w : World Fs} {path : Path} {name : CStr} {fields : List (IntField σ)} {a : σ}

/-- Write the members one after the other. -/
def writeFields {κ : Type} (K : Kernel κ) (path : Path) (name : CStr) (fields : List (IntField σ)) (a : σ) : Io κ Unit :=
  forEach (fun x => x.format.write K path name x.file (x.value a)) fields

/-- Each member has a file of its own, and its values are those of an `int`. -/
structure FieldsOk (fields : List (IntField σ)) : Prop where
  nodup : KeysNodup IntField.file fields
  named : ∀ x ∈ fields, x.file ≠ []
  fits : ∀ x ∈ fields, ∀ a, -2 ^ 31 ≤ x.value a ∧ x.value a < 2 ^ 31

/-- The files hold the members of `a`. -/
def HoldsFields (path : Path) (name : CStr) (fields : List (IntField σ)) (a : σ) (T : Tree) : Prop :=
  ∀ x ∈ fields, HoldsInt path name x.file x.format (x.value a) T

/-- All of them hold what was written, since no file is written twice. -/
lemma writeFields_ends (M : Machine) (path : Path) (name : CStr) (hok : FieldsOk fields) (a : σ) (w : World Fs) :
    Ends (fun _ w' => HoldsFields path name fields a w'.tree) (fun _ _ => True) False
      (writeFields M.kernel path name fields a w) := by
  refine Ends.forEachDone (fun done (w' : World Fs) => HoldsFields path name done a w'.tree) ?_ (by simp [HoldsFields])
  intro done y w' hdone hheld
  have hy : y ∈ fields := hdone.subset (by simp)
  refine (write_ends M y.format path name y.file (y.value a) w').mono ?_ fun _ _ h => h
  rintro - w₁ ⟨hnew, hothers⟩ x hx
  rcases List.mem_append.mp hx with hx | hx
  · have hxfields : x ∈ fields := hdone.subset (by simp [hx])
    exact hothers _ _ _ (hok.named y hy) (hok.named x hxfields) (hok.nodup.ne_of_prefix hdone x hx) (hheld x hx)
  · obtain rfl := List.mem_singleton.mp hx
    exact hnew

/-- The next member is read. -/
lemma readField_bind {k : ℤ → Io Fs α} (x : IntField σ) {Q : α → World Fs → Prop} {U : Prop} (hok : FieldsOk fields)
    (hheld : HoldsFields path name fields a w.tree) (hx : x ∈ fields)
    (h : ∀ w', HoldsFields path name fields a w'.tree → Ends Q (fun _ _ => ¬ ReadsGranted M) U (k (x.value a) w')) :
    Ends Q (fun _ _ => ¬ ReadsGranted M) U
      ((usbgReadInt M.kernel path name x.file x.format.base >>= k) w) := by
  refine Ends.bind ((usbgReadInt_held (hok.fits x hx a) (hheld x hx)).mono_undef (fun _ _ h => h) (fun _ _ h => h)
    False.elim) ?_
  rintro _ w' ⟨rfl, ht⟩
  exact h w' (by rwa [ht])

end Fields

/-! ## The attributes of a gadget and of a configuration -/

/-- The members of `struct usbg_gadget_attrs`, in the order in which they are written. -/
def gadgetFields : List (IntField GadgetAttrs) :=
  [⟨"bcdUSB".toList, .hex16, fun a => a.bcdUSB.toNat⟩,
    ⟨"bDeviceClass".toList, .hex8, fun a => a.bDeviceClass.toNat⟩,
    ⟨"bDeviceSubClass".toList, .hex8, fun a => a.bDeviceSubClass.toNat⟩,
    ⟨"bDeviceProtocol".toList, .hex8, fun a => a.bDeviceProtocol.toNat⟩,
    ⟨"bMaxPacketSize0".toList, .hex8, fun a => a.bMaxPacketSize0.toNat⟩,
    ⟨"idVendor".toList, .hex16, fun a => a.idVendor.toNat⟩,
    ⟨"idProduct".toList, .hex16, fun a => a.idProduct.toNat⟩,
    ⟨"bcdDevice".toList, .hex16, fun a => a.bcdDevice.toNat⟩]

/-- The members of `struct usbg_config_attrs`. -/
def configFields : List (IntField ConfigAttrs) :=
  [⟨"MaxPower".toList, .dec, fun a => a.bMaxPower.toNat⟩,
    ⟨"bmAttributes".toList, .hex8, fun a => a.bmAttributes.toNat⟩]

lemma fits_toNat_uint8 (x : UInt8) : -2 ^ 31 ≤ (x.toNat : ℤ) ∧ (x.toNat : ℤ) < 2 ^ 31 := by
  have := x.toNat_lt
  omega

lemma fits_toNat_uint16 (x : UInt16) : -2 ^ 31 ≤ (x.toNat : ℤ) ∧ (x.toNat : ℤ) < 2 ^ 31 := by
  have := x.toNat_lt
  omega

/-- A byte that is widened and cut down again. -/
lemma uint8_ofInt_toNat (x : UInt8) : UInt8.ofInt x.toNat = x := by
  have := x.toNat_lt
  rw [UInt8.ofInt, Int.emod_eq_of_lt (by omega) (by omega), Int.toNat_natCast, UInt8.ofNat_toNat]

lemma uint16_ofInt_toNat (x : UInt16) : UInt16.ofInt x.toNat = x := by
  have := x.toNat_lt
  rw [UInt16.ofInt, Int.emod_eq_of_lt (by omega) (by omega), Int.toNat_natCast, UInt16.ofNat_toNat]

lemma gadgetFields_ok : FieldsOk gadgetFields where
  nodup := by decide
  named := by simp [gadgetFields]
  fits x hx a := by
    simp only [gadgetFields, List.mem_cons, List.not_mem_nil, or_false] at hx
    rcases hx with rfl | rfl | rfl | rfl | rfl | rfl | rfl | rfl <;> first
      | exact fits_toNat_uint16 _
      | exact fits_toNat_uint8 _

lemma configFields_ok : FieldsOk configFields where
  nodup := by decide
  named := by simp [configFields]
  fits x hx a := by
    simp only [configFields, List.mem_cons, List.not_mem_nil, or_false] at hx
    rcases hx with rfl | rfl <;> exact fits_toNat_uint8 _

section Attrs

variable {M : Machine} {w : World Fs} {g : Gadget} {c : Config}

lemma usbgSetGadgetAttrs_eq {κ : Type} (K : Kernel κ) (g : Gadget) (attrs : GadgetAttrs) :
    usbgSetGadgetAttrs K g attrs = writeFields K g.path g.name gadgetFields attrs := by
  simp only [usbgSetGadgetAttrs, writeFields, gadgetFields, forEach_cons, forEach_nil, IntFormat.write, Prog.bind_pure]

lemma usbgSetConfigAttrs_eq {κ : Type} (K : Kernel κ) (c : Config) (attrs : ConfigAttrs) :
    usbgSetConfigAttrs K c attrs = writeFields K c.path c.name configFields attrs := by
  simp only [usbgSetConfigAttrs, writeFields, configFields, forEach_cons, forEach_nil, IntFormat.write, Prog.bind_pure]

/-- The getter returns what the files hold. -/
lemma usbgGetGadgetAttrs_held {attrs : GadgetAttrs} (h : HoldsFields g.path g.name gadgetFields attrs w.tree) :
    ReadsBack M (usbgGetGadgetAttrs M.kernel g) attrs w := by
  refine readField_bind gadgetFields[0] gadgetFields_ok h (List.getElem_mem _) fun w₁ h₁ => ?_
  refine readField_bind gadgetFields[1] gadgetFields_ok h₁ (List.getElem_mem _) fun w₂ h₂ => ?_
  refine readField_bind gadgetFields[2] gadgetFields_ok h₂ (List.getElem_mem _) fun w₃ h₃ => ?_
  refine readField_bind gadgetFields[3] gadgetFields_ok h₃ (List.getElem_mem _) fun w₄ h₄ => ?_
  refine readField_bind gadgetFields[4] gadgetFields_ok h₄ (List.getElem_mem _) fun w₅ h₅ => ?_
  refine readField_bind gadgetFields[5] gadgetFields_ok h₅ (List.getElem_mem _) fun w₆ h₆ => ?_
  refine readField_bind gadgetFields[6] gadgetFields_ok h₆ (List.getElem_mem _) fun w₇ h₇ => ?_
  refine readField_bind gadgetFields[7] gadgetFields_ok h₇ (List.getElem_mem _) fun w₈ h₈ => ?_
  show GadgetAttrs.mk _ _ _ _ _ _ _ _ = attrs
  simp only [gadgetFields, List.getElem_cons_zero, List.getElem_cons_succ, uint8_ofInt_toNat, uint16_ofInt_toNat]

lemma usbgGetConfigAttrs_held {attrs : ConfigAttrs} (h : HoldsFields c.path c.name configFields attrs w.tree) :
    ReadsBack M (usbgGetConfigAttrs M.kernel c) attrs w := by
  refine readField_bind configFields[0] configFields_ok h (List.getElem_mem _) fun w₁ h₁ => ?_
  refine readField_bind configFields[1] configFields_ok h₁ (List.getElem_mem _) fun w₂ h₂ => ?_
  show ConfigAttrs.mk _ _ = attrs
  simp only [configFields, List.getElem_cons_zero, List.getElem_cons_succ, uint8_ofInt_toNat]

/-- What has been written is read back: a number in any of the formats, the attributes of a gadget and those of a
configuration.  The bytes that are in the buffer of the reader before are those of the machine, and may be any. -/
theorem integers_readBack (M : Machine) :
    (∀ (fmt : IntFormat) (v : ℤ), -2 ^ 31 ≤ v ∧ v < 2 ^ 31 → ∀ (path : Path) (name file : CStr) (w w' : World Fs),
      fmt.write M.kernel path name file v w = (.ok (), w') →
        ReadsBack M (usbgReadInt M.kernel path name file fmt.base) v w') ∧
    (∀ (g : Gadget) (attrs : GadgetAttrs) (w w' : World Fs), usbgSetGadgetAttrs M.kernel g attrs w = (.ok (), w') →
      ReadsBack M (usbgGetGadgetAttrs M.kernel g) attrs w') ∧
    (∀ (c : Config) (attrs : ConfigAttrs) (w w' : World Fs), usbgSetConfigAttrs M.kernel c attrs w = (.ok (), w') →
      ReadsBack M (usbgGetConfigAttrs M.kernel c) attrs w') := by
  refine ⟨fun fmt v hv path name file w w' hwrite => ?_, fun g attrs w w' hset => ?_, fun c attrs w w' hset => ?_⟩
  · have hends := write_ends M fmt path name file v w
    rw [hwrite] at hends
    exact (usbgReadInt_held hv hends.1).mono (fun _ _ h => h.1) fun _ _ h => h
  · have hends := writeFields_ends M g.path g.name gadgetFields_ok attrs w
    rw [← usbgSetGadgetAttrs_eq, hset] at hends
    exact usbgGetGadgetAttrs_held hends
  · have hends := writeFields_ends M c.path c.name configFields_ok attrs w
    rw [← usbgSetConfigAttrs_eq, hset] at hends
    exact usbgGetConfigAttrs_held hends

/-- A tree with one file. -/
def numberFile : World Fs := worldOf ⟨[(["d".toList, "f".toList], .file [])], List.nodup_singleton _⟩

/-- The file after a negative number has been written to it in hexadecimal. -/
def minusOneFile : World Fs := (IntFormat.hex.write willing.kernel ["d".toList] [] "f".toList (-1) numberFile).2

lemma write_minusOne :
    IntFormat.hex.write willing.kernel ["d".toList] [] "f".toList (-1) numberFile = (.ok (), minusOneFile) :=
  Prod.ext (by decide +kernel) rfl

/-- It is read as the same number. -/
theorem integers_readBack_minusOne :
    ReadsBack willing (usbgReadInt willing.kernel ["d".toList] [] "f".toList IntFormat.hex.base) (-1) minusOneFile :=
  (integers_readBack willing).1 .hex (-1) (by decide) ["d".toList] [] "f".toList numberFile minusOneFile write_minusOne

end Attrs

end Libusbgx
