import Libusbgx.Mirror.Import
import Libusbgx.Source.Function.Scheme
import Libusbgx.Source.Function.Uac2

/-!
# Calls on one object

The setters of a gadget and of a configuration write its files and make the directories of its strings; the calls on
a function work in its directory.  None of them changes a list.
-/

namespace Libusbgx

open Prog Machine

variable {M : Machine} {cfg : CStr} {N : Naming} {w : World Fs} {g : Gadget} {c : Config} {p : Path}
  {I : World Fs → Prop}

/-! ## Setters of a gadget -/

lemma StableIn.keeps_usbgSetGadgetOsDescs {K : Kernel Fs} (h : StableIn K p I) {descs : GadgetOsDescs}
    (hp : p <+: g.path ++ [g.name]) : Keeps I (usbgSetGadgetOsDescs K g descs) :=
  have hs : p <+: g.path ++ [g.name, osDescDir] := below_cons hp _
  .bind (.require _) fun _ => .bind (h.keeps_usbgCheckDir hs) fun _ =>
    .bind (h.keeps_usbgWriteString (below hs _)) fun _ => .bind (h.keeps_usbgWriteHex8 (below hs _)) fun _ =>
    h.keeps_usbgWriteDec (below hs _)

/-- The calls that set something of a gadget. -/
inductive GadgetSetter where
  | attrs (attrs : GadgetAttrs)
  | attr (attr : GadgetAttr) (val : ℤ)
  | vendorId (idVendor : UInt16)
  | productId (idProduct : UInt16)
  | deviceClass (bDeviceClass : UInt8)
  | deviceProtocol (bDeviceProtocol : UInt8)
  | deviceSubclass (bDeviceSubClass : UInt8)
  | deviceMaxPacket (bMaxPacketSize0 : UInt8)
  | deviceBcdDevice (bcdDevice : UInt16)
  | deviceBcdUsb (bcdUSB : UInt16)
  | strs (lang : ℤ) (strs : GadgetStrs)
  | str (str : GadgetStr) (lang : ℤ) (val : Option CStr)
  | serialNumber (lang : ℤ) (serno : Option CStr)
  | manufacturer (lang : ℤ) (mnf : Option CStr)
  | product (lang : ℤ) (prd : Option CStr)
  | rmStrs (lang : ℤ)
  | osDescs (descs : GadgetOsDescs)

namespace GadgetSetter

def run (M : Machine) (g : Gadget) : GadgetSetter → Io Fs Unit
  | attrs a => usbgSetGadgetAttrs M.kernel g a
  | attr a val => usbgSetGadgetAttr M.kernel g a val
  | vendorId idVendor => usbgSetGadgetVendorId M.kernel g idVendor
  | productId idProduct => usbgSetGadgetProductId M.kernel g idProduct
  | deviceClass bDeviceClass => usbgSetGadgetDeviceClass M.kernel g bDeviceClass
  | deviceProtocol bDeviceProtocol => usbgSetGadgetDeviceProtocol M.kernel g bDeviceProtocol
  | deviceSubclass bDeviceSubClass => usbgSetGadgetDeviceSubclass M.kernel g bDeviceSubClass
  | deviceMaxPacket bMaxPacketSize0 => usbgSetGadgetDeviceMaxPacket M.kernel g bMaxPacketSize0
  | deviceBcdDevice bcdDevice => usbgSetGadgetDeviceBcdDevice M.kernel g bcdDevice
  | deviceBcdUsb bcdUSB => usbgSetGadgetDeviceBcdUsb M.kernel g bcdUSB
  | strs lang s => usbgSetGadgetStrs M.kernel g lang s
  | str s lang val => usbgSetGadgetStr M.kernel g s lang val
  | serialNumber lang serno => usbgSetGadgetSerialNumber M.kernel g lang serno
  | manufacturer lang mnf => usbgSetGadgetManufacturer M.kernel g lang mnf
  | product lang prd => usbgSetGadgetProduct M.kernel g lang prd
  | rmStrs lang => usbgRmGadgetStrs M.kernel g lang
  | osDescs d => usbgSetGadgetOsDescs M.kernel g d

/-- They leave the places alone. -/
lemma run_mirror (hM : Configfs M cfg) (h : GadgetMirrored cfg N w g) (s : GadgetSetter) :
    Steps cfg N True True (io (s.run M g)) w g := by
  have hwrite : ∀ file buf, Steps cfg N True True (io (usbgWriteBuf M.kernel g.path g.name file buf)) w g :=
    fun file buf => steps_io h (keeps_beside_usbgWriteBuf hM h.clean (by simp [Gadget.dir]))
  have hstr : ∀ lang file val, Keeps (Beside cfg g.dir w) (setGadgetStrFile M.kernel g lang file val) :=
    fun lang file val => keeps_beside_setGadgetStrFile hM h file val
  cases s with
  | attrs attrs => exact usbgSetGadgetAttrs_mirror hM h attrs
  | attr | vendorId | productId | deviceClass | deviceProtocol | deviceSubclass | deviceMaxPacket | deviceBcdDevice
  | deviceBcdUsb => exact hwrite _ _
  | strs lang strs => exact usbgSetGadgetStrs_mirror hM h strs
  | str str lang val => exact steps_io h (hstr lang _ val)
  | serialNumber lang serno => exact steps_io h (.bind (.require _) fun _ => hstr lang _ serno)
  | manufacturer lang mnf => exact steps_io h (.bind (.require _) fun _ => hstr lang _ mnf)
  | product lang prd => exact steps_io h (.bind (.require _) fun _ => hstr lang _ prd)
  | rmStrs lang => exact usbgRmGadgetStrs_mirror hM h
  | osDescs descs => exact usbgSetGadgetOsDescs_mirror hM h descs

lemma keeps (h : StableUp M.kernel [] I) (s : GadgetSetter) : Keeps I (s.run M g) := by
  have hwrite : ∀ file buf, Keeps I (usbgWriteBuf M.kernel g.path g.name file buf) := fun _ _ =>
    h.keeps_usbgWriteBuf List.nil_prefix
  have hstr : ∀ lang file val, Keeps I (setGadgetStrFile M.kernel g lang file val) := fun _ _ _ =>
    .bind (.require _) fun _ => .bind (h.keeps_usbgCheckDir List.nil_prefix) fun _ =>
      h.keeps_usbgWriteString List.nil_prefix
  cases s with
  | attrs attrs => exact h.keeps_usbgSetGadgetAttrs List.nil_prefix
  | attr | vendorId | productId | deviceClass | deviceProtocol | deviceSubclass | deviceMaxPacket | deviceBcdDevice
  | deviceBcdUsb => exact hwrite _ _
  | strs lang strs => exact h.keeps_usbgSetGadgetStrs List.nil_prefix
  | str str lang val => exact hstr lang _ val
  | serialNumber lang serno => exact .bind (.require _) fun _ => hstr lang _ serno
  | manufacturer lang mnf => exact .bind (.require _) fun _ => hstr lang _ mnf
  | product lang prd => exact .bind (.require _) fun _ => hstr lang _ prd
  | rmStrs lang => exact .bind (.require _) fun _ => h.keeps_usbgRmDir List.nil_prefix
  | osDescs descs => exact h.keeps_usbgSetGadgetOsDescs List.nil_prefix

end GadgetSetter

/-! ## Setters of a configuration -/

/-- The calls that set something of a configuration. -/
inductive ConfigSetter where
  | attrs (attrs : ConfigAttrs)
  | maxPower (bMaxPower : ℤ)
  | bmAttrs (bmAttributes : ℤ)
  | strs (lang : ℤ) (strs : ConfigStrs)
  | string (lang : ℤ) (string : Option CStr)
  | rmStrs (lang : ℤ)

namespace ConfigSetter

def run (M : Machine) (c : Config) : ConfigSetter → Io Fs Unit
  | attrs a => usbgSetConfigAttrs M.kernel c a
  | maxPower bMaxPower => usbgSetConfigMaxPower M.kernel c bMaxPower
  | bmAttrs bmAttributes => usbgSetConfigBmAttrs M.kernel c bmAttributes
  | strs lang s => usbgSetConfigStrs M.kernel c lang s
  | string lang s => usbgSetConfigString M.kernel c lang s
  | rmStrs lang => usbgRmConfigStrs M.kernel c lang

/-- They leave the places alone. -/
lemma run_mirror (hM : Configfs M cfg) (h : GadgetMirrored cfg N w g) (hc : c ∈ g.configs) (s : ConfigSetter) :
    Steps cfg N True True (io (s.run M c)) w g := by
  cases s with
  | attrs attrs => exact usbgSetConfigAttrs_mirror hM h hc attrs
  | maxPower bMaxPower => exact writeConfigFile_mirror hM h hc _ _
  | bmAttrs bmAttributes => exact writeConfigFile_mirror hM h hc _ _
  | strs lang strs => exact usbgSetConfigString_mirror hM h hc strs.configuration
  | string lang string => exact usbgSetConfigString_mirror hM h hc string
  | rmStrs lang => exact usbgRmConfigStrs_mirror hM h hc

lemma keeps (h : StableUp M.kernel [] I) (s : ConfigSetter) : Keeps I (s.run M c) := by
  cases s with
  | attrs attrs => exact h.keeps_usbgSetConfigAttrs List.nil_prefix
  | maxPower bMaxPower => exact h.keeps_usbgWriteDec List.nil_prefix
  | bmAttrs bmAttributes => exact h.keeps_usbgWriteHex8 List.nil_prefix
  | strs lang strs => exact h.keeps_usbgSetConfigString List.nil_prefix
  | string lang string => exact h.keeps_usbgSetConfigString List.nil_prefix
  | rmStrs lang => exact .bind (.require _) fun _ => h.keeps_usbgRmDir List.nil_prefix

end ConfigSetter

/-! ## Calls on a function -/

/-- The calls on a function.  Those in the last lines only read, but a function remembers which units and frames it has
found. -/
inductive FunctionCall where
  | setAttrs (attrs : FunctionAttrs)
  | setInterfOsDesc (iname : CStr) (desc : FunctionOsDesc)
  | netSetAttrs (vals : List AttrVal)
  | netSetAttrVal (attr : ℕ) (val : AttrVal)
  | midiSetAttrVal (attr : ℕ) (val : AttrVal)
  | hidSetAttrVal (attr : ℕ) (val : AttrVal)
  | loopbackSetAttrVal (attr : ℕ) (val : ℤ)
  | uac2SetAttrs (attrs : Uac2Attrs)
  | uac2SetAttrVal (attr : ℕ) (val : AttrVal)
  | msSetStall (stall : Bool)
  | msSetLunAttrVal (lunId : ℤ) (lattr : ℕ) (val : AttrVal)
  | msSetLunAttrs (lunId : ℤ) (lattrs : MsLunAttrs)
  | msCreateLun (lunId : ℤ) (lattrs : Option MsLunAttrs)
  | msRmLun (lunId : ℤ)
  | msGetNluns
  | msGetAttrs
  | msExport
  | uvcExport

/-- `usbg_to_ms_function` and the like, with a call on the result: it is the null pointer for other types. -/
def onTypes {α : Type} (types : List FunctionType) (m : On Fs Func α) : On Fs Func Unit := do
  let f ← self
  if f.type ∈ types then do
    let _ ← m
    pure ()
  else undef

/-- The types that `usbg_to_net_function` is for. -/
def netTypes : List FunctionType := [.ecm, .subset, .ncm, .eem, .rndis]

namespace FunctionCall

/-- The call, without the value it returns. -/
def run (M : Machine) : FunctionCall → On Fs Func Unit
  | setAttrs attrs => usbgSetFunctionAttrs (functionOps M.kernel) attrs
  | setInterfOsDesc iname desc => do
    let f ← self
    io (usbgSetInterfOsDesc M.kernel f iname desc)
  | netSetAttrs vals => onTypes netTypes do
    let f ← self
    io (usbgFNetSetAttrs M.kernel f vals)
  | netSetAttrVal attr val => onTypes netTypes (usbgFNetSetAttrVal M.kernel attr val)
  | midiSetAttrVal attr val => onTypes [.midi] (usbgFMidiSetAttrVal M.kernel attr val)
  | hidSetAttrVal attr val => onTypes [.hid] (usbgFHidSetAttrVal M.kernel attr val)
  | loopbackSetAttrVal attr val => onTypes [.loopback] (usbgFLoopbackSetAttrVal M.kernel attr val)
  | uac2SetAttrs attrs => onTypes [.uac2] do
    let f ← self
    io (usbgFUac2SetAttrs M.kernel f attrs)
  | uac2SetAttrVal attr val => onTypes [.uac2] (usbgFUac2SetAttrVal M.kernel attr val)
  | msSetStall stall => onTypes [.massStorage] (usbgFMsSetStall M.kernel stall)
  | msSetLunAttrVal lunId lattr val => onTypes [.massStorage] do
    let a ← deref msLunAttr[lattr]?
    usbgFMsSetLunAttrVal M.kernel lunId a val
  | msSetLunAttrs lunId lattrs => onTypes [.massStorage] (usbgFMsSetLunAttrs M.kernel lunId lattrs)
  | msCreateLun lunId lattrs => onTypes [.massStorage] (usbgFMsCreateLun M.kernel lunId lattrs)
  | msRmLun lunId => onTypes [.massStorage] (usbgFMsRmLun M.kernel lunId)
  | msGetNluns => onTypes [.massStorage] (usbgFMsGetNluns M.kernel)
  | msGetAttrs => onTypes [.massStorage] (usbgFMsGetAttrs M.kernel)
  | msExport => onTypes [.massStorage] (msLibconfigExport M.kernel [])
  | uvcExport => onTypes [.uvc] (uvcLibconfigExport M.kernel [])

end FunctionCall

namespace StableIn

variable {K : Kernel Fs} (h : StableIn K p I)

include h

lemma keeps_usbgReadInt {path : Path} {name file : CStr} {base : ℕ} (hp : p <+: path ++ [name]) :
    Keeps I (usbgReadInt K path name file base) :=
  .bind (h.keeps_usbgReadBufLimited hp) fun _ => .bind (fun _ hw => hw) fun _ => .pure _

/-- The `get` callbacks read a file. -/
lemma keeps_get {path : Path} {name file : CStr} {kind : AttrKind} (hp : p <+: path ++ [name]) :
    Keeps I (kind.get K path name file) := by
  cases kind with
  | dec => exact .bind (h.keeps_usbgReadInt hp) fun _ => .pure _
  | bool => exact .bind (.bind (h.keeps_usbgReadInt hp) fun _ => .pure _) fun _ => .pure _
  | string => exact .bind (h.keeps_usbgReadStringLimited hp) fun _ => .pure _
  | etherAddr =>
    refine .bind (.bind (h.keeps_usbgReadString hp) fun s => ?_) fun _ => .pure _
    cases etherAton s with
    | none => exact .fail _
    | some octets => exact .pure _
  | reportDesc => exact .bind (h.keeps_usbgReadBufLimited hp) fun _ => .pure _
  | guid =>
    exact .bind (.bind (h.keeps_usbgReadBufLimited hp) fun _ => .ite (fun _ => .undef) fun _ =>
      .bind (.require _) fun _ => .pure _) fun _ => .pure _

omit h in
/-- The `export` callbacks change nothing. -/
lemma keeps_exprt {kind : AttrKind} {root : Members} {name : CStr} {val : AttrVal} :
    Keeps I (kind.exprt root name val) := by
  rw [AttrKind.exprt.eq_def]
  split <;> first | exact .ofExcept _ | exact .undef

omit h in
lemma keeps_addNode {σ : Type} {J : σ → Prop} {root : Members} {name : CStr} {refused : Prog UsbgError σ Members}
    {fill : Prog UsbgError σ Setting} (hrefused : Keeps J refused) (hfill : Keeps J fill) :
    Keeps J (addNode root name refused fill) :=
  .ite (fun _ => hrefused) fun _ => .bind hfill fun _ => .pure _

variable {k : Func.Core} (hp : p <+: k.dir)

include hp

lemma keeps_setTableAttrVal {table : List Attr} {attr : ℕ} {val : AttrVal} :
    Keeps (OnCore I k) (setTableAttrVal K table attr val) :=
  keeps_self_bind fun _ hf => .bind (.deref _) fun _ => .ite (fun _ => .fail _) fun _ =>
    keeps_io (h.keeps_set (below_dir hp hf))

lemma keeps_usbgFMsGetLunAttrVal {id : ℤ} {a : Attr} : Keeps (OnCore I k) (usbgFMsGetLunAttrVal K id a) := by
  refine keeps_self_bind fun f hf => .bind (.require _) fun _ => ?_
  have hlun : p <+: lunPath f id ++ [[]] := below (below_cons (below_dir hp hf) _) _
  split
  · exact .bind (keeps_io (.bind (h.keeps_usbgReadInt hlun) fun _ => .pure _)) fun _ => .pure _
  · exact .bind (keeps_io (h.keeps_usbgReadStringLimited hlun)) fun _ => .pure _
  · exact .undef

lemma keeps_getLunAttrVals {id : ℤ} (table : List Attr) : Keeps (OnCore I k) (getLunAttrVals K id table) := by
  induction table with
  | nil => exact .pure _
  | cons a table ih => exact .bind (h.keeps_usbgFMsGetLunAttrVal hp) fun _ => .bind ih fun _ => .pure _

lemma keeps_usbgFMsGetStall : Keeps (OnCore I k) (usbgFMsGetStall K) :=
  keeps_self_bind fun _ hf => keeps_io (.bind (h.keeps_usbgReadInt (below_dir hp hf)) fun _ => .pure _)

lemma keeps_usbgFMsGetNluns : Keeps (OnCore I k) (usbgFMsGetNluns K) := .bind (h.keeps_getLunMask hp) fun _ => .pure _

lemma keeps_usbgFMsGetAttrs : Keeps (OnCore I k) (usbgFMsGetAttrs K) := by
  refine .bind (h.keeps_usbgFMsGetStall hp) fun _ => .bind (h.keeps_getLunMask hp) fun _ =>
    .bind (h.keeps_usbgFMsGetNluns hp) fun _ => .bind (.foldlM (fun luns i _ => ?_) _) fun _ => .pure _
  exact .bind keeps_self fun _ => .ite (fun _ => .pure _) fun _ => .ite (fun _ => .undef) fun _ =>
    .bind (.bind (h.keeps_getLunAttrVals hp _) fun _ => .pure _) fun _ => .pure _

lemma keeps_msLibconfigExport {root : Members} : Keeps (OnCore I k) (msLibconfigExport K root) := by
  refine .bind (h.keeps_usbgFMsGetStall hp) fun _ => .bind (keeps_io (.ofExcept _)) fun _ =>
    keeps_addNode (.pure _) (.bind (h.keeps_getLunMask hp) fun _ => .bind (.foldlM (fun nodes i _ => ?_) _) fun _ =>
      .pure _)
  exact .bind keeps_self fun _ => .ite (fun _ => .pure _) fun _ =>
    .bind (.foldlM (fun _ _ _ => .bind (h.keeps_usbgFMsGetLunAttrVal hp) fun _ => keeps_io keeps_exprt) _) fun _ =>
      .pure _

omit h hp in
lemma keeps_exportAttr {get : Attr → Io Fs AttrVal} {root : Members} {a : Attr} (hget : Keeps I (get a)) :
    Keeps I (exportAttr get root a) := .bind hget fun _ => keeps_exprt

omit h hp in
lemma keeps_exportFound {get : Attr → Io Fs AttrVal} (hget : ∀ a, Keeps I (get a)) (table : List Attr) :
    ∀ root, Keeps I (exportFound get table root) := by
  induction table with
  | nil => exact fun _ => .pure _
  | cons a table ih =>
    refine fun root => .bind (.attempt (keeps_exportAttr (hget a))) fun r => ?_
    split
    · exact ih _
    · exact .pure _
    · exact .fail _

lemma keeps_uvcLibconfigExport {root : Members} : Keeps (OnCore I k) (uvcLibconfigExport K root) := by
  have hframe : ∀ (f : Func) format id a, f.core = k → Keeps I (usbgFUvcGetFrameAttrVal K f format id a) :=
    fun f format id a hf => .bind (.require _) fun _ => h.keeps_get (below (below_uvcFramePath hp hf) _)
  have hformat : ∀ (f : Func) format a, f.core = k → Keeps I (usbgFUvcGetFormatAttrVal K f format a) :=
    fun f format a hf => .bind (.require _) fun _ => h.keeps_get (below (below_uvcFormatPath hp hf) _)
  have hconfig : ∀ (f : Func) a, f.core = k → Keeps I (usbgFUvcGetConfigAttrVal K f a) :=
    fun f a hf => .bind (.require _) fun _ => h.keeps_get (below (below_cons (below_dir hp hf) _) _)
  refine .bind (keeps_addNode (.fail _) (.bind (h.keeps_getFormatsMask hp) fun _ =>
    .bind (.foldlM (fun nodes fj _ => ?_) _) fun _ => .pure _)) fun _ => keeps_self_bind fun f hf => keeps_io ?_
  · refine keeps_self_bind fun f hf => .bind (.deref _) fun frames => .bind (keeps_io (keeps_addNode (.fail _)
      (.bind (.foldlM (fun _ _ _ => .bind ?_ fun _ => .pure _) _) fun _ => .pure _))) fun _ =>
      .bind (keeps_io ?_) fun _ => .pure _
    · exact keeps_exportFound (fun a => hframe f _ _ a hf) _ _
    · exact keeps_exportFound (fun a => hformat f _ a hf) _ _
  · exact keeps_addNode (.pure _) (.bind (.foldlM (fun _ a _ => keeps_exportAttr (hconfig f a hf)) _) fun _ => .pure _)

end StableIn

/-- A call on a function works in the directory of the function. -/
lemma FunctionCall.keeps (h : StableUpIn M.kernel p I) (k : Func.Core) (hp : p <+: k.dir) (c : FunctionCall) :
    Keeps (OnCore I k) (c.run M) := by
  have hon : ∀ {α : Type} {types : List FunctionType} {m : On Fs Func α}, Keeps (OnCore I k) m →
      Keeps (OnCore I k) (onTypes types m) := fun hm =>
    .bind keeps_self fun _ => .ite (fun _ => .bind hm fun _ => .pure _) fun _ => .undef
  cases c with
  | setAttrs attrs =>
    exact keeps_self_bind fun f _ => .deref_bind fun r hr =>
      (functionOps_stable M.kernel).setAttrs h k hp _ r attrs hr
  | setInterfOsDesc iname desc =>
    exact keeps_self_bind fun _ hf => keeps_io (h.keeps_usbgSetInterfOsDesc (below_dir hp hf))
  | netSetAttrs vals =>
    exact hon (keeps_self_bind fun _ hf => keeps_io (StableIn.keeps_setTable fun _ _ => h.keeps_set (below_dir hp hf)))
  | netSetAttrVal | midiSetAttrVal | hidSetAttrVal | loopbackSetAttrVal | uac2SetAttrVal =>
    exact hon (h.keeps_setTableAttrVal hp)
  | uac2SetAttrs attrs =>
    exact hon (keeps_self_bind fun _ hf => keeps_io (.forEach fun _ _ => h.keeps_set (below_dir hp hf)))
  | msSetStall stall => exact hon (h.keeps_usbgFMsSetStall hp)
  | msSetLunAttrVal lunId lattr val => exact hon (.bind (.deref _) fun _ => h.keeps_usbgFMsSetLunAttrVal hp)
  | msSetLunAttrs lunId lattrs => exact hon (h.keeps_usbgFMsSetLunAttrs hp)
  | msCreateLun lunId lattrs => exact hon (h.keeps_usbgFMsCreateLun hp)
  | msRmLun lunId => exact hon (h.keeps_usbgFMsRmLun hp)
  | msGetNluns => exact hon (h.keeps_usbgFMsGetNluns hp)
  | msGetAttrs => exact hon (h.keeps_usbgFMsGetAttrs hp)
  | msExport => exact hon (h.keeps_msLibconfigExport hp)
  | uvcExport => exact hon (h.keeps_uvcLibconfigExport hp)

lemma FunctionCall.run_mirror (hM : Configfs M cfg) (h : GadgetMirrored cfg N w g) (f : Addr) (c : FunctionCall) :
    Steps cfg N True True (onFunction f (c.run M)) w g :=
  (MirrorStep.onFunction hM h fun hst k hp => c.keeps hst k hp).mono (fun _ _ ht => ht.1) fun _ _ ht => ht

end Libusbgx
