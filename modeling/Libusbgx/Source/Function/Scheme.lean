import Libusbgx.Source.Function.Export

/-!
# Exporting units and frames

The `export` of the mass storage and of the video functions, which make a list with a group for every
unit and for every frame.
-/

namespace Libusbgx

open Prog

variable {κ : Type} (K : Kernel κ)

/-- A node that is added to a group with `config_setting_add`, and filled then.  A name that is there
is refused. -/
def addNode {σ : Type} (root : Members) (name : CStr) (refused : Prog UsbgError σ Members)
    (fill : Prog UsbgError σ Setting) : Prog UsbgError σ Members :=
  if name ∈ root.map Prod.fst then refused
  else do
    let node ← fill
    pure (root ++ [(name, node)])

lemma addNode_ends {σ : Type} {root : Members} {name : CStr} {refused : Prog UsbgError σ Members}
    {fill : Prog UsbgError σ Setting} {Q : Members → σ → Prop} {E : UsbgError → σ → Prop} {U : Prop} {s : σ}
    (hrefused : name ∈ root.map Prod.fst → Ends Q E U (refused s))
    (hfill : name ∉ root.map Prod.fst → Ends (fun node => Q (root ++ [(name, node)])) E U (fill s)) :
    Ends Q E U (addNode root name refused fill s) :=
  Ends.ite hrefused fun hname => Ends.bind (hfill hname) fun _ _ h => h

/-! ## Mass storage -/

/-- `ms_export_lun_attrs` -/
def msExportLunAttrs (lunId : ℤ) (root : Members) : On κ Func Members :=
  msLunAttr.foldlM (fun root a => do
    let val ← usbgFMsGetLunAttrVal K lunId a
    io (a.kind.exprt root a.name val)) root

/-- One round of the loop of `ms_libconfig_export`, which looks at the mask through a pointer. -/
def msExportLun (nodes : List Setting) (i : ℕ) : On κ Func (List Setting) := do
  let f ← self
  if i ∉ f.luns then pure nodes
  else do
    let node ← msExportLunAttrs K i []
    pure (nodes ++ [.group node])

/-- `ms_libconfig_export`; where the list cannot be added, the result is that of the call before. -/
def msLibconfigExport (root : Members) : On κ Func Members := do
  let stall ← usbgFMsGetStall K
  let root ← io (ofExcept (usbgSetConfigNodeBool root "stall".toList stall))
  addNode root "luns".toList (pure root) do
    let _ ← getLunMask K
    let nodes ← (List.range maxLuns).foldlM (msExportLun K) []
    pure (.list nodes)

/-! ## Video -/

/-- `usbg_f_uvc_get_config_attr_val` -/
def usbgFUvcGetConfigAttrVal (f : Func) (a : Attr) : Io κ AttrVal := do
  require (f.path ++ [f.name, []]).Fits .pathTooLong
  a.kind.get K (f.path ++ [f.name, []]) [] a.name

/-- `usbg_f_uvc_get_frame_attr_val` -/
def usbgFUvcGetFrameAttrVal (f : Func) (format : Path) (id : ℤ) (a : Attr) : Io κ AttrVal := do
  require (uvcFramePath f format id).Fits .pathTooLong
  a.kind.get K (uvcFramePath f format id) [] a.name

/-- `usbg_f_uvc_get_format_attr_val` -/
def usbgFUvcGetFormatAttrVal (f : Func) (format : Path) (a : Attr) : Io κ AttrVal := do
  require (uvcFormatPath f format).Fits .pathTooLong
  a.kind.get K (uvcFormatPath f format) [] a.name

/-- `usbg_f_uvc_get_nframes` -/
def usbgFUvcGetNframes (frames : List ℕ) : ℕ := ((List.range maxFrames).filter (· ∈ frames)).length

/-- The loop of `uvc_export_frame_attrs` and `uvc_export_format_attrs`: what is not found ends the loop,
and the group that has been made so far is taken for a success. -/
def exportFound (get : Attr → Io κ AttrVal) : List Attr → Members → Io κ Members
  | [], root => pure root
  | a :: table, root => do
    match ← attempt (exportAttr get root a) with
    | .ok root => exportFound get table root
    | .error .notFound => pure root
    | .error e => fail e

/-- `uvc_export_frame_attrs` -/
def uvcExportFrameAttrs (f : Func) (format : Path) (id : ℤ) (root : Members) : Io κ Members :=
  exportFound (usbgFUvcGetFrameAttrVal K f format id) uvcFrameAttr root

/-- `uvc_export_format_attrs` -/
def uvcExportFormatAttrs (f : Func) (format : Path) (root : Members) : Io κ Members :=
  exportFound (usbgFUvcGetFormatAttrVal K f format) uvcFormatAttr root

/-- One round of the loop of `uvc_export_frames`. -/
def uvcExportFrame (f : Func) (format : Path) (nodes : List Setting) (i : ℕ) : Io κ (List Setting) := do
  let node ← uvcExportFrameAttrs K f format i []
  pure (nodes ++ [.group node])

/-- `uvc_export_frames` -/
def uvcExportFrames (f : Func) (format : Path) (frames : List ℕ) (root : Members) : Io κ Members :=
  addNode root "frames".toList (fail .invalidFormat) do
    let nodes ← (List.range (usbgFUvcGetNframes frames)).foldlM (uvcExportFrame K f format) []
    pure (.list nodes)

/-- `uvc_export_config`; where the group cannot be added, the result is a success. -/
def uvcExportConfig (f : Func) (root : Members) : Io κ Members :=
  addNode root "config".toList (pure root) do
    let node ← exportTable uvcConfigAttr (usbgFUvcGetConfigAttrVal K f) []
    pure (.group node)

/-- The name of the group of a format, which is that of its directory without the last two characters. -/
def formatNodeName (format : Path) : CStr := (['/'].intercalate format).dropLast.dropLast

/-- One round of the loop of `uvc_libconfig_export`, for the format number `j`.  The names of the formats
are different, so that each group can be added. -/
def uvcExportFormat (nodes : Members) (fj : Path × ℕ) : On κ Func Members := do
  let f ← self
  let frames ← deref f.frames[fj.2]?
  let node ← io (uvcExportFrames K f fj.1 frames [])
  let node ← io (uvcExportFormatAttrs K f fj.1 node)
  pure (nodes ++ [(formatNodeName fj.1, .group node)])

/-- `uvc_libconfig_export` -/
def uvcLibconfigExport (root : Members) : On κ Func Members := do
  let root ← addNode root "formats".toList (fail .invalidParam) do
    getFormatsMask K
    let nodes ← formatNames.zipIdx.foldlM (uvcExportFormat K) []
    pure (.group nodes)
  let f ← self
  io (uvcExportConfig K f root)

end Libusbgx
