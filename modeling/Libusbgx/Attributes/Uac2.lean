import Libusbgx.Attributes.RoundTrip
import Libusbgx.Source.Function.Uac2

/-!
# The structure of an audio function

A callback for a number reads and writes four bytes, also at a field that has only two.  What is behind
the field decides whether the number is that of the field.
-/

namespace Libusbgx

open Prog Machine

variable {M : Machine} {w w' : World Fs} {f : Func} {attrs attrs' : Uac2Attrs} {e e' : CField} {val : AttrVal}

/-! ## Loading and storing a field -/

/-- The kind of attribute that a field of the type has. -/
def CType.kind : CType → AttrKind
  | .int | .uint | .short => .dec
  | .bool => .bool
  | .string => .string

lemma uac2Layout_kind : ∀ e ∈ uac2Layout, e.attr.kind = e.type.kind := by decide

lemma uac2Layout_pairwise : uac2Layout.Pairwise fun e e' => e.offset + e.type.size ≤ e'.offset := by decide

lemma uac2Layout_names : (uac2Layout.map fun e => e.attr.name).Nodup ∧ ∀ e ∈ uac2Layout, e.attr.name ≠ [] := by
  decide

/-- What the kernel has of a value when it is read again. -/
def AttrVal.readBack : AttrVal → AttrVal
  | .string (some s) => .string (some (untilNewline (ofBuffer (s.take (usbgMaxFileSize - 1)))))
  | val => val

/-- The four bytes of a number, or the whole of another value, are those of the field. -/
def CField.Whole (e : CField) (attrs : Uac2Attrs) : Prop :=
  match e.type with
  | .uint => attrs.bytes.toNat e.offset 4 < 2 ^ 31
  | .short => attrs.bytes.SignExtended e.offset
  | _ => True

instance (e : CField) (attrs : Uac2Attrs) : Decidable (e.Whole attrs) :=
  match h : e.type with
  | .uint => decidable_of_iff (attrs.bytes.toNat e.offset 4 < 2 ^ 31) (by rw [CField.Whole, h])
  | .short => decidable_of_iff (attrs.bytes.SignExtended e.offset) (by rw [CField.Whole, h])
  | .int | .bool | .string => isTrue (by rw [CField.Whole, h]; trivial)

lemma CField.load_eq_value (hkind : e.attr.kind = e.type.kind) :
    attrs.load e.attr.kind e.offset = e.value attrs ↔ e.Whole attrs := by
  rw [hkind, CField.value, CField.Whole]
  cases e.type with
  | int => simp [CType.kind, Uac2Attrs.load]
  | uint => simp only [CType.kind, Uac2Attrs.load, AttrVal.int.injEq, Bytes.toInt_eq_toNat]
  | short => simp only [CType.kind, Uac2Attrs.load, AttrVal.int.injEq, Bytes.toInt_four_eq_two]
  | bool => simp [CType.kind, Uac2Attrs.load]
  | string => simp [CType.kind, Uac2Attrs.load]

/-- A field is in its bytes, or is the string at its offset. -/
lemma CField.value_congr (hbytes : ∀ i < e.type.size, attrs'.bytes (e.offset + i) = attrs.bytes (e.offset + i))
    (hstring : attrs'.strings e.offset = attrs.strings e.offset) : e.value attrs' = e.value attrs := by
  rw [CField.value, CField.value]
  cases htype : e.type <;> rw [htype] at hbytes
  case int => exact congrArg AttrVal.int (Bytes.toInt_congr (n := 4) hbytes)
  case uint => exact congrArg (fun n : ℕ => AttrVal.int n) (Bytes.toNat_congr (n := 4) hbytes)
  case short => exact congrArg AttrVal.int (Bytes.toInt_congr (n := 2) hbytes)
  case bool =>
    have hbyte : attrs'.bytes e.offset = attrs.bytes e.offset := hbytes 0 (by decide)
    dsimp only
    rw [hbyte]
  case string => exact congrArg AttrVal.string hstring

/-- A store behind a field leaves it as it is. -/
lemma CField.value_store_of_le {offset : ℕ} (h : e.offset + e.type.size ≤ offset) :
    e.value (attrs.store offset val) = e.value attrs := by
  have hsize : 0 < e.type.size := by cases e.type <;> decide
  have hbehind : ∀ n v i, i < e.type.size → attrs.bytes.store offset n v (e.offset + i) = attrs.bytes (e.offset + i) :=
    fun n v i hi => if_neg (by omega)
  cases val with
  | int v => exact e.value_congr (fun i hi => hbehind 4 _ i hi) rfl
  | bool b => exact e.value_congr (fun i hi => hbehind 1 _ i hi) rfl
  | string s => exact e.value_congr (fun _ _ => rfl) (if_neg (by omega))
  | etherAddr o => rfl
  | reportDesc d => rfl

/-- A field that is loaded and stored again is what it was, but for a string that cannot be read again. -/
lemma CField.value_store_self (hkind : e.attr.kind = e.type.kind) :
    e.value (attrs'.store e.offset (attrs.load e.attr.kind e.offset).readBack) = (e.value attrs).readBack := by
  rw [hkind, CField.value, CField.value]
  cases e.type with
  | int | short =>
    simp only [CType.kind, Uac2Attrs.load_dec, AttrVal.readBack, Uac2Attrs.bytes_store_int]
    rw [Bytes.toInt_store_toInt _ _ _ _ (by omega)]
  | uint =>
    simp only [CType.kind, Uac2Attrs.load_dec, AttrVal.readBack, Uac2Attrs.bytes_store_int]
    rw [Bytes.toNat_store_toInt _ _ _ _ le_rfl]
  | bool =>
    simp only [CType.kind, Uac2Attrs.load_bool, AttrVal.readBack, Uac2Attrs.bytes_store_bool]
    by_cases hzero : attrs.bytes e.offset = 0
    · simp [hzero, Bytes.store_at]
    · simp [hzero, Bytes.store_at]
  | string =>
    simp only [CType.kind, Uac2Attrs.load_string]
    cases attrs.strings e.offset <;> exact congrArg AttrVal.string (if_pos rfl)

/-! ## Runs -/

/-- The file of a field. -/
def CField.path (e : CField) (f : Func) : Path := f.path ++ [f.name, e.attr.name]

lemma CField.resolve_path (hclean : f.dir.Clean) (he : e ∈ uac2Layout) :
    (e.path f).resolve = f.dir ++ [e.attr.name] := by
  have hpath : e.path f = f.dir ++ [e.attr.name] := by simp [CField.path, Func.dir]
  rw [hpath, hclean.resolve_append, List.filter_cons_of_pos (by simpa using uac2Layout_names.2 e he), List.filter_nil]

/-- The file of the field holds what was loaded for it. -/
structure Loaded (f : Func) (attrs : Uac2Attrs) (T : Tree) (e : CField) : Prop where
  takes : e.attr.kind.Takes (attrs.load e.attr.kind e.offset)
  fits : (e.path f).Fits
  file : T.get (f.dir ++ [e.attr.name]) = some (.file (attrs.load e.attr.kind e.offset).rendered)

/-- What is loaded can be written, but for a null pointer. -/
lemma load_takes (he : e ∈ uac2Layout) (hset : attrs.load e.attr.kind e.offset ≠ .string none) :
    e.attr.kind.Takes (attrs.load e.attr.kind e.offset) := by
  rw [uac2Layout_kind e he] at hset ⊢
  cases htype : e.type with
  | int | uint | short | bool => exact rfl
  | string =>
    rw [htype] at hset
    cases hs : attrs.strings e.offset with
    | none => exact absurd (congrArg AttrVal.string hs) hset
    | some s => exact congrArg (AttrKind.takes .string) (congrArg AttrVal.string hs)

/-- `usbg_f_uac2_set_attrs` -/
lemma usbgFUac2SetAttrs_ends (hclean : f.dir.Clean) :
    Ends (fun _ w' => ∀ e ∈ uac2Layout, Loaded f attrs w'.tree e) (fun _ _ => True) False
      (usbgFUac2SetAttrs M.kernel f attrs w) := by
  refine Ends.forEachDone (fun (done : List CField) (w' : World Fs) => ∀ e ∈ done, Loaded f attrs w'.tree e) ?_ (by simp)
  intro done e w' hpre hdone
  have he : e ∈ uac2Layout := hpre.subset (by simp)
  by_cases hnull : attrs.load e.attr.kind e.offset = .string none
  · have hkind : e.attr.kind = .string := by
      rw [uac2Layout_kind e he] at hnull ⊢
      cases htype : e.type <;> rw [htype] at hnull <;> first | rfl | cases hnull
    rw [setAttrVal, hnull, hkind]
    exact trivial
  have htakes := load_takes he hnull
  rw [setAttrVal, htakes.set_eq]
  refine Ends.require_bind (fun hfits => ends_write (fun w'' hfile ht _ => ?_) fun _ _ _ _ => trivial) fun _ => trivial
  obtain ⟨content, hcontent⟩ := hfile
  have hpath : (f.path ++ [f.name, e.attr.name]).resolve = f.dir ++ [e.attr.name] := e.resolve_path hclean he
  rw [hpath] at hcontent ht
  intro e' he'
  rcases List.mem_append.mp he' with he' | he'
  · -- the names of the files are different
    have hnodup := (hpre.sublist.map fun e => e.attr.name).nodup uac2Layout_names.1
    rw [List.map_append, List.nodup_append] at hnodup
    have hname := hnodup.2.2 _ (List.mem_map_of_mem he') _ (List.mem_singleton_self _)
    obtain ⟨htakes', hfits', hfile'⟩ := hdone e' he'
    refine ⟨htakes', hfits', ?_⟩
    rw [ht, FileTree.get_replace, if_neg (by simpa using hname), hfile']
  · obtain rfl := List.mem_singleton.mp he'
    refine ⟨htakes, hfits, ?_⟩
    rw [ht, FileTree.get_replace, if_pos rfl, hcontent]
    rfl

/-- What has been written is read again, as far as it can be. -/
lemma load_heldBy (he : e ∈ uac2Layout) (htakes : e.attr.kind.Takes (attrs.load e.attr.kind e.offset)) :
    e.attr.kind.Takes (attrs.load e.attr.kind e.offset).readBack ∧
      (attrs.load e.attr.kind e.offset).readBack.HeldBy (attrs.load e.attr.kind e.offset).rendered := by
  rw [uac2Layout_kind e he] at htakes ⊢
  cases htype : e.type with
  | int | uint | short =>
    have hplain : (AttrVal.int (attrs.bytes.toInt e.offset 4)).Plain := Bytes.toInt_fits _ _
    exact ⟨rfl, hplain.heldBy⟩
  | bool =>
    have hplain : (AttrVal.bool (attrs.bytes e.offset ≠ 0)).Plain := trivial
    exact ⟨rfl, hplain.heldBy⟩
  | string =>
    rw [htype] at htakes
    have hload : attrs.load CType.string.kind e.offset = .string (attrs.strings e.offset) := rfl
    cases hs : attrs.strings e.offset with
    | none =>
      rw [hload, hs] at htakes
      cases htakes
    | some s =>
      rw [hload, hs]
      exact ⟨rfl, rfl⟩

/-- `usbg_f_uac2_get_attrs` after the files have been written -/
lemma usbgFUac2GetAttrs_ok (hclean : f.dir.Clean) (hgrants : ∀ e ∈ uac2Layout, M.Grants (.read (e.path f)))
    {l : List CField} (hl : ∀ e ∈ l, e ∈ uac2Layout) (hloaded : ∀ e ∈ l, Loaded f attrs w.tree e) (attrs₀ : Uac2Attrs) :
    ∃ w', (l.foldlM (fun attrs (e : CField) => do
        let val ← getAttrVal M.kernel f e.attr
        pure (attrs.store e.offset val)) attrs₀ : Io Fs Uac2Attrs) w =
      (.ok (l.foldl (fun a e => a.store e.offset (attrs.load e.attr.kind e.offset).readBack) attrs₀), w') := by
  induction l generalizing w attrs₀ with
  | nil => exact ⟨w, rfl⟩
  | cons e l ih =>
    have he := hl e (List.mem_cons_self ..)
    obtain ⟨htakes, hfits, hfile⟩ := hloaded e (List.mem_cons_self ..)
    obtain ⟨htakes', hheld⟩ := load_heldBy he htakes
    rw [← e.resolve_path hclean he] at hfile
    obtain ⟨w₁, hget, ht⟩ := htakes'.get_ok hfits (hgrants e he) hfile hheld
    obtain ⟨w', hrest⟩ := ih (w := w₁) (fun e' he' => hl e' (List.mem_cons_of_mem _ he'))
      (fun e' he' => ht ▸ hloaded e' (List.mem_cons_of_mem _ he'))
      (attrs₀.store e.offset (attrs.load e.attr.kind e.offset).readBack)
    refine ⟨w', ?_⟩
    rw [List.foldlM_cons, Prog.bind_assoc, getAttrVal, bind_ok hget]
    exact hrest

/-- A field is what was stored there, whatever is stored behind it later. -/
lemma value_foldl {l : List CField} (hl : ∀ e ∈ l, e ∈ uac2Layout)
    (hapart : l.Pairwise fun e e' => e.offset + e.type.size ≤ e'.offset) (he : e ∈ l) (attrs₀ : Uac2Attrs) :
    e.value (l.foldl (fun a e => a.store e.offset (attrs.load e.attr.kind e.offset).readBack) attrs₀) =
      (e.value attrs).readBack := by
  induction l generalizing attrs₀ with
  | nil => cases he
  | cons e' l ih =>
    rw [List.foldl_cons]
    obtain ⟨hbehind, hapart⟩ := List.pairwise_cons.mp hapart
    have hl' : ∀ e ∈ l, e ∈ uac2Layout := fun e he => hl e (List.mem_cons_of_mem _ he)
    rcases List.mem_cons.mp he with rfl | he
    · have hkeep : ∀ (l : List CField) (a : Uac2Attrs), (∀ e' ∈ l, e.offset + e.type.size ≤ e'.offset) →
          e.value (l.foldl (fun a e => a.store e.offset (attrs.load e.attr.kind e.offset).readBack) a) = e.value a := by
        intro l
        induction l with
        | nil => exact fun _ _ => rfl
        | cons e' l ih =>
          intro a hall
          rw [List.foldl_cons, ih _ fun e'' he'' => hall e'' (List.mem_cons_of_mem _ he''),
            e.value_store_of_le (hall e' (List.mem_cons_self ..))]
      rw [hkeep l _ hbehind, e.value_store_self (uac2Layout_kind e (hl e (List.mem_cons_self ..)))]
    · exact ih hl' hapart he _

/-! ## What is kept -/

/-- The files hold the values of the fields, and a structure that is read from them has these again,
whatever it had before. -/
structure Uac2Kept (M : Machine) (w' : World Fs) (f : Func) (attrs : Uac2Attrs) : Prop where
  files : ∀ e ∈ uac2Layout, w'.tree.get (f.dir ++ [e.attr.name]) = some (.file (e.value attrs).rendered)
  returned : ∀ attrs₀, ∃ attrs₁ w₁, usbgFUac2GetAttrs M.kernel f attrs₀ w' = (.ok attrs₁, w₁) ∧
    ∀ e ∈ uac2Layout, e.value attrs₁ = e.value attrs

/-- Different values of a field are written differently. -/
lemma CField.rendered_load (hkind : e.attr.kind = e.type.kind) :
    (attrs.load e.attr.kind e.offset).rendered = (e.value attrs).rendered ↔ e.Whole attrs := by
  rw [← e.load_eq_value hkind]
  refine ⟨fun h => ?_, fun h => congrArg AttrVal.rendered h⟩
  have hfits := attrs.bytes.toInt_fits e.offset
  -- only the numbers are loaded by another type
  rw [hkind, CField.value] at h ⊢
  cases htype : e.type <;> rw [htype] at h
  case int | bool | string => rfl
  case uint =>
    have hlt := attrs.bytes.toNat_lt e.offset 4
    have hprint : printDec (attrs.bytes.toInt e.offset 4) = printDec (attrs.bytes.toNat e.offset 4) :=
      List.append_cancel_right h
    exact congrArg AttrVal.int (printDec_inj (by omega) (by omega) hprint)
  case short =>
    have hshort : -2 ^ 31 ≤ attrs.bytes.toInt e.offset 2 ∧ attrs.bytes.toInt e.offset 2 < 2 ^ 31 := by
      rw [Bytes.toInt, Int.bmod_def]
      omega
    have hprint : printDec (attrs.bytes.toInt e.offset 4) = printDec (attrs.bytes.toInt e.offset 2) :=
      List.append_cancel_right h
    exact congrArg AttrVal.int (printDec_inj (by omega) (by omega) hprint)

/-- A structure that has been set is kept if and only if every number is the whole of what is loaded for
it and every string can be read again. -/
theorem uac2Kept_iff (hclean : f.dir.Clean) (hgrants : ∀ e ∈ uac2Layout, M.Grants (.read (e.path f)))
    (hset : usbgFUac2SetAttrs M.kernel f attrs w = (.ok (), w')) :
    Uac2Kept M w' f attrs ↔ ∀ e ∈ uac2Layout, e.Whole attrs ∧ (e.value attrs).readBack = e.value attrs := by
  have hloaded : ∀ e ∈ uac2Layout, Loaded f attrs w'.tree e := by
    have hends : Ends _ _ _ (usbgFUac2SetAttrs M.kernel f attrs w) := usbgFUac2SetAttrs_ends hclean
    rwa [hset] at hends
  have hget := fun attrs₀ => usbgFUac2GetAttrs_ok hclean hgrants (fun _ he => he) hloaded attrs₀
  have hvalue : ∀ attrs₀, ∀ e ∈ uac2Layout, e.value (uac2Layout.foldl
      (fun a e => a.store e.offset (attrs.load e.attr.kind e.offset).readBack) attrs₀) = (e.value attrs).readBack :=
    fun attrs₀ e he => value_foldl (fun _ he => he) uac2Layout_pairwise he attrs₀
  constructor
  · rintro ⟨hfiles, hreturned⟩ e he
    obtain ⟨attrs₁, w₁, hrun, hsame⟩ := hreturned attrs
    obtain ⟨w₁', hrun'⟩ := hget attrs
    obtain rfl : _ = attrs₁ := Outcome.ok.inj (congrArg Prod.fst (hrun'.symm.trans hrun))
    refine ⟨?_, (hvalue attrs e he).symm.trans (hsame e he)⟩
    have hfile := (hloaded e he).file.symm.trans (hfiles e he)
    exact (e.rendered_load (uac2Layout_kind e he)).mp (Node.file.inj (Option.some.inj hfile))
  · intro hall
    refine ⟨fun e he => ?_, fun attrs₀ => ?_⟩
    · rw [(hloaded e he).file, (e.rendered_load (uac2Layout_kind e he)).mpr (hall e he).1]
    · obtain ⟨w₁, hrun⟩ := hget attrs₀
      exact ⟨_, w₁, hrun, fun e he => (hvalue attrs₀ e he).trans (hall e he).2⟩

/-! ## Two functions -/

/-- A structure whose fields have been given the values in their order, each number as an `int`. -/
def uac2Struct (vals : List AttrVal) : Uac2Attrs :=
  (uac2Layout.zip vals).foldl (fun attrs ev => attrs.store ev.1.offset ev.2) ⟨fun _ => 0, fun _ => none⟩

/-- The attributes of an audio function; the capture volume has its controls or not. -/
def uac2ControlVals (control : Bool) : List AttrVal :=
  [.int 3, .int 64000, .int 2, .int 3, .int 48000, .int 2, .int 0, .int 0, .string (some "async".toList),
    .int 2, .int 5, .bool true, .bool true, .int (-25600), .int 0, .int 1, .bool control, .bool false,
    .int (-25600), .int 0, .int 256, .string (some "Source/Sink".toList)]

/-- Setting the attributes of the first audio function. -/
def uac2SetRun (control : Bool) : Outcome UsbgError Unit × World Fs :=
  usbgFUac2SetAttrs willing.kernel (tableFunc .uac2 "uac2.0") (uac2Struct (uac2ControlVals control))
    (worldOf (tableTree .uac2 uac2Funcs))

lemma uac2SetRun_ok : ∀ control, (uac2SetRun control).1 = .ok () := by decide +kernel

lemma uac2Func_clean : (tableFunc .uac2 "uac2.0").dir.Clean := by decide +kernel

lemma uac2Struct_whole : ∀ e ∈ uac2Layout, e.Whole (uac2Struct (uac2ControlVals false)) ∧
    (e.value (uac2Struct (uac2ControlVals false))).readBack = e.value (uac2Struct (uac2ControlVals false)) := by
  decide +kernel

lemma uac2SetRun_eq (control : Bool) : uac2SetRun control = (.ok (), (uac2SetRun control).2) := by
  rw [← uac2SetRun_ok control]

/-- Without the controls, the bytes behind the resolution are zero. -/
theorem uac2Kept_uncontrolled :
    Uac2Kept willing (uac2SetRun false).2 (tableFunc .uac2 "uac2.0") (uac2Struct (uac2ControlVals false)) :=
  (uac2Kept_iff uac2Func_clean (fun _ _ => by simp [Grants, willing]) (uac2SetRun_eq false)).mpr uac2Struct_whole

/-- The resolution of the playback volume. -/
def volumeRes : CField := { attr := .rw "p_volume_res" .dec, type := .short, offset := 60 }

lemma uac2SetRun_control : volumeRes ∈ uac2Layout ∧
    volumeRes.value (uac2Struct (uac2ControlVals true)) = .int 1 ∧
    (uac2SetRun true).2.tree.get ((tableFunc .uac2 "uac2.0").dir ++ [volumeRes.attr.name]) =
      some (.file (AttrVal.int 65537).rendered) := by
  decide +kernel

/-- The mute control of the capture volume is the third byte of the resolution of the playback volume. -/
theorem uac2Kept_fails :
    uac2SetRun true = (.ok (), (uac2SetRun true).2) ∧
      ¬ Uac2Kept willing (uac2SetRun true).2 (tableFunc .uac2 "uac2.0") (uac2Struct (uac2ControlVals true)) := by
  obtain ⟨hmem, hvalue, hfile⟩ := uac2SetRun_control
  refine ⟨uac2SetRun_eq true, fun h => ?_⟩
  have hheld := h.files volumeRes hmem
  rw [hvalue, hfile] at hheld
  have hdiff : (AttrVal.int 65537).rendered ≠ (AttrVal.int 1).rendered := by decide +kernel
  exact hdiff (Node.file.inj (Option.some.inj hheld))

end Libusbgx
