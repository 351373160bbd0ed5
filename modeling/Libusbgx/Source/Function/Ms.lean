import Libusbgx.Source.Function.Table

/-!
# Mass storage

A mass storage function has a directory for every logical unit.  Which units there are is
remembered in a mask, read from the directory when it is first needed.
-/

namespace Libusbgx

open Prog

variable {κ : Type} (K : Kernel κ)

/-- `MAX_LUNS` -/
def maxLuns : ℕ := 16

/-- What `sscanf` with a format `prefix%d` says about a name. -/
inductive IndexScan where
  /-- the name does not match -/
  | mismatch
  /-- the name ended before the number: `EOF`, and the number is not set -/
  | eof
  | index (id : ℤ)
deriving DecidableEq, Repr

/-- `sscanf(name, "prefix%d", &id)` -/
def scanIndex (pre name : CStr) : IndexScan :=
  if name <+: pre then .eof
  else if pre <+: name then
    let rest := (name.drop pre.length).dropWhile isSpace
    let r := strtol 10 rest
    if rest = [] then .eof
    else if r.rest = rest then .mismatch
    else .index (toInt r.value)
  else .mismatch

/-- The directory of a unit, `lun.%d`. -/
def lunDir (id : ℤ) : CStr := "lun.".toList ++ printDec id

/-- The path of a unit as the code prints it, with a slash at the end. -/
def lunPath (f : Func) (id : ℤ) : Path := f.path ++ [f.name, lunDir id, []]

/-- `ms_lun_attr` -/
def msLunAttr : List Attr :=
  [.rw "cdrom" .bool, .rw "ro" .bool, .rw "nofua" .bool, .rw "removable" .bool,
    .rw "file" .string, .rw "inquiry_string" .string]

/-! ## The mask -/

/-- Set one index of the mask. -/
def setLun (i : ℕ) (f : Func) : Func := { f with luns := i :: f.luns }

/-- Clear one index of the mask. -/
def clearLun (i : ℕ) (f : Func) : Func := { f with luns := f.luns.filter (· ≠ i) }

/-- `init_luns`; the order in which `lun_sort` puts the entries does not matter for a mask. -/
def initLuns : On κ Func Unit := do
  let f ← self
  require (f.path ++ [f.name, []]).Fits .pathTooLong
  let ds ← io (call K (.scandir (f.path ++ [f.name, []])))
  forEach (fun d : Dirent =>
    match scanIndex "lun.".toList d.name with
    | .mismatch => pure ()
    | .eof => undef
    | .index id => if 0 ≤ id ∧ id < maxLuns then update (setLun id.toNat) else undef)
    (ds.filter fileSelect)

/-- `get_lun_mask`: the mask is read when it is first needed, and an error is not reported. -/
def getLunMask : On κ Func (List ℕ) := do
  let f ← self
  when (¬ f.lunsInitiated) do
    match ← attempt (initLuns K) with
    | .ok _ => update fun f => { f with lunsInitiated := true }
    | .error _ => pure ()
  let f ← self
  pure f.luns

/-! ## Units -/

/-- `usbg_f_ms_set_stall` -/
def usbgFMsSetStall (stall : Bool) : On κ Func Unit := do
  let f ← self
  io (usbgWriteBool K f.path f.name "stall".toList stall)

/-- `usbg_f_ms_set_lun_attr_val` -/
def usbgFMsSetLunAttrVal (lunId : ℤ) (a : Attr) (val : AttrVal) : On κ Func Unit := do
  let f ← self
  require (lunPath f lunId).Fits .pathTooLong
  io (a.kind.set K (lunPath f lunId) [] a.name val)

/-- `usbg_f_ms_set_lun_attrs` -/
def usbgFMsSetLunAttrs (lunId : ℤ) (lattrs : MsLunAttrs) : On κ Func Unit :=
  if lattrs.vals.length = msLunAttr.length then
    forEach (fun av => usbgFMsSetLunAttrVal K lunId av.1 av.2) (msLunAttr.zip lattrs.vals)
  else undef

/-- `usbg_f_ms_get_stall` -/
def usbgFMsGetStall : On κ Func Bool := do
  let f ← self
  io (usbgReadBool K f.path f.name "stall".toList)

/-- `usbg_f_ms_get_lun_attr_val`, with the `get` callbacks of the two kinds of attributes a unit has -/
def usbgFMsGetLunAttrVal (lunId : ℤ) (a : Attr) : On κ Func AttrVal := do
  let f ← self
  require (lunPath f lunId).Fits .pathTooLong
  match a.kind with
  | .bool => do
    let b ← io (usbgReadBool K (lunPath f lunId) [] a.name)
    pure (.bool b)
  | .string => do
    let s ← io (usbgReadStringAlloc K (lunPath f lunId) [] a.name)
    pure (.string (some s))
  | _ => undef

/-- The loop of `usbg_f_ms_get_lun_attrs` over the table. -/
def getLunAttrVals (lunId : ℤ) : List Attr → On κ Func (List AttrVal)
  | [] => pure []
  | a :: as => do
    let val ← usbgFMsGetLunAttrVal K lunId a
    let vals ← getLunAttrVals lunId as
    pure (val :: vals)

/-- `usbg_f_ms_get_lun_attrs` -/
def usbgFMsGetLunAttrs (lunId : ℤ) : On κ Func MsLunAttrs := do
  let vals ← getLunAttrVals K lunId msLunAttr
  pure { id := lunId, vals }

/-- `usbg_f_ms_get_nluns` -/
def usbgFMsGetNluns : On κ Func ℕ := do
  let luns ← getLunMask K
  pure ((List.range maxLuns).filter (· ∈ luns)).length

/-- `usbg_f_ms_create_lun` -/
def usbgFMsCreateLun (lunId : ℤ) (lattrs : Option MsLunAttrs) : On κ Func Unit := do
  require (lunId < maxLuns) .invalidParam
  let luns ← getLunMask K
  if lunId < 0 then undef
  else
    require (lunId.toNat ∉ luns) .exist
    let f ← self
    require (lunPath f lunId).Fits .pathTooLong
    io (call K (.mkdir (lunPath f lunId)))
    whenSome (fun lattrs =>
      onFail (usbgFMsSetLunAttrs K lunId lattrs) (io (tryCall K (.rmdir (lunPath f lunId)))))
      lattrs
    update (setLun lunId.toNat)

/-- `usbg_f_ms_rm_lun` -/
def usbgFMsRmLun (lunId : ℤ) : On κ Func Unit := do
  require (lunId < maxLuns) .invalidParam
  let luns ← getLunMask K
  if lunId < 0 then undef
  else
    require (lunId.toNat ∈ luns) .invalidParam
    let f ← self
    require (lunPath f lunId).Fits .pathTooLong
    io (call K (.rmdir (lunPath f lunId)))
    update (clearLun lunId.toNat)

/-! ## Attributes -/

/-- What `usbg_f_ms_get_attrs` leaves in the `struct usbg_f_ms_attrs`: the whole array that it has
allocated, in which `none` is a null pointer. -/
structure MsAttrsRead where
  stall : Bool
  nluns : ℕ
  luns : List (Option MsLunAttrs)
deriving DecidableEq, Repr

/-- One round of the loop of `usbg_f_ms_get_attrs`: the array is indexed with the number of the unit,
and an index outside of it is written all the same. -/
def msGetAttrsRound (lunAttrs : List (Option MsLunAttrs)) (i : ℕ) :
    On κ Func (List (Option MsLunAttrs)) := do
  let f ← self
  if i ∉ f.luns then pure lunAttrs
  else if lunAttrs.length ≤ i then undef
  else do
    let l ← usbgFMsGetLunAttrs K i
    pure (lunAttrs.set i (some l))

/-- `usbg_f_ms_get_attrs` -/
def usbgFMsGetAttrs : On κ Func MsAttrsRead := do
  let stall ← usbgFMsGetStall K
  let _ ← getLunMask K
  let nluns ← usbgFMsGetNluns K
  let lunAttrs ← (List.range maxLuns).foldlM (msGetAttrsRound K) (List.replicate (nluns + 1) none)
  pure { stall, nluns, luns := lunAttrs }

/-- The array `luns_to_be` of `usbg_f_ms_set_attrs`: at which indices a unit is asked for.  An
id outside of the array is written all the same. -/
def lunsToBe (attrs : MsAttrs) : Option (List ℤ) :=
  let ids : List ℤ := attrs.luns.zipIdx.map fun li => if 0 ≤ li.1.id then li.1.id else li.2
  if ∀ id ∈ ids, id < maxLuns then some ids else none

/-- The unit at an index of the array `attrs->luns`, which ends with a null pointer: nothing
may be read behind that. -/
def lunAttrsAt (attrs : MsAttrs) (i : ℕ) : Option (Option MsLunAttrs) :=
  if i < attrs.luns.length then some attrs.luns[i]?
  else if i = attrs.luns.length then some none
  else none

/-- One round of the main loop of `usbg_f_ms_set_attrs`.  The mask is looked at as it is now;
the attributes are taken from the index of the unit. -/
def msSetAttrsRound (attrs : MsAttrs) (toBe : List ℤ) (i : ℕ) : On κ Func Unit := do
  let f ← self
  if i ∈ f.luns then
    if (i : ℤ) ∈ toBe then
      let l ← deref (lunAttrsAt attrs i)
      let l ← deref l
      usbgFMsSetLunAttrs K i l
    else usbgFMsRmLun K i
  else
    when ((i : ℤ) ∈ toBe) do
      let l ← deref (lunAttrsAt attrs i)
      usbgFMsCreateLun K i l

/-- One round of the clean-up loop of `usbg_f_ms_set_attrs`. -/
def msCleanupRound (toBe : List ℤ) (i : ℕ) : On κ Func Unit := do
  let f ← self
  when (i ∉ f.luns ∧ (i : ℤ) ∈ toBe) do
    let _ ← attempt (usbgFMsRmLun K i)
    pure ()

/-- The main loop of `usbg_f_ms_set_attrs` over the indices `todo`, after those in `done`. -/
def msSetAttrsLoop (attrs : MsAttrs) (toBe : List ℤ) (done : List ℕ) :
    (todo : List ℕ) → On κ Func Unit
  | [] => pure ()
  | i :: todo => do
    onFail (msSetAttrsRound K attrs toBe i) (forEach (msCleanupRound K toBe) done)
    msSetAttrsLoop attrs toBe (done ++ [i]) todo

/-- `usbg_f_ms_set_attrs` -/
def usbgFMsSetAttrs (attrs : MsAttrs) : On κ Func Unit := do
  usbgFMsSetStall K attrs.stall
  let _ ← getLunMask K
  -- `usbg_f_ms_get_nluns` asks for the mask once more
  let _ ← getLunMask K
  let toBe ← deref (lunsToBe attrs)
  msSetAttrsLoop K attrs toBe [] (List.range maxLuns)

/-- `ms_set_attrs` -/
def msSetAttrs (attrs : FunctionAttrs) : On κ Func Unit :=
  match attrs with
  | .ms attrs => usbgFMsSetAttrs K attrs
  | _ => undef

/-! ## Import and removal -/

/-- `ms_import_lun_attrs` -/
def msImportLunAttrs (lunId : ℤ) (root : Setting) : On κ Func Unit :=
  forEach (fun a : Attr => do
    match ← ofExcept (a.kind.imprt root a.name) with
    | none => pure ()
    | some val => usbgFMsSetLunAttrVal K lunId a val) msLunAttr

/-- One round of the loop of `ms_libconfig_import`. -/
def msImportLun (i : ℕ) (node : Setting) : On κ Func Unit := do
  require (node.isGroup) .invalidType
  let f ← self
  (if maxLuns ≤ i then undef
    else when (i ∉ f.luns) (usbgFMsCreateLun K i none))
  msImportLunAttrs K i node

/-- `ms_libconfig_import` -/
def msLibconfigImport (root : Setting) : On κ Func Unit := do
  let stall ← ofExcept (usbgGetConfigNodeBool root "stall".toList)
  whenSome (usbgFMsSetStall K) stall
  match root.getMember "luns".toList with
  | none => fail .invalidParam
  | some lunsNode =>
    require (lunsNode.isList) .invalidType
    let _ ← getLunMask K
    forEach (fun ni : Setting × ℕ => msImportLun K ni.2 ni.1) lunsNode.elems.zipIdx

/-- `ms_remove`: the first unit cannot be removed. -/
def msRemove (_opts : RmOpts) : On κ Func Unit := do
  let _ ← getLunMask K
  forEach (fun i : ℕ => do
    let f ← self
    when (i ∈ f.luns) (usbgFMsRmLun K i)) ((List.range maxLuns).drop 1)

end Libusbgx
