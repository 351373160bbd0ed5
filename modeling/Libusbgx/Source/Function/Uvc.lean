import Libusbgx.Source.Function.Ms

/-!
# Video

A video function has directories for its formats and their frames, and links that tie the
class headers to them.  Removing it walks these directories with `nftw`.
-/

namespace Libusbgx

open Prog

variable {κ : Type} (K : Kernel κ)

/-- `MAX_FRAMES` -/
def maxFrames : ℕ := 16

/-- `MAX_FORMATS` -/
def maxFormats : ℕ := 2

/-- `UVC_PATH_CONTROL` -/
def uvcPathControl : CStr := "control".toList

/-- `UVC_PATH_STREAMING` -/
def uvcPathStreaming : CStr := "streaming".toList

/-- `UVC_PATH_HEADER` -/
def uvcPathHeader : Path := ["header".toList, "h".toList]

/-- `UVC_PATH_CLASS_FS`, `UVC_PATH_CLASS_HS` and `UVC_PATH_CLASS_SS` -/
def uvcPathClass (speed : String) : Path := ["class".toList, speed.toList, "h".toList]

/-- `UVC_PATH_STREAMING_UNCOMPRESSED` -/
def uvcPathStreamingUncompressed : Path := ["uncompressed".toList, "u".toList]

/-- `UVC_PATH_STREAMING_MJPEG` -/
def uvcPathStreamingMjpeg : Path := ["mjpeg".toList, "m".toList]

/-- `format_names` -/
def formatNames : List Path := [uvcPathStreamingMjpeg, uvcPathStreamingUncompressed]

/-- `uvc_config_attr` -/
def uvcConfigAttr : List Attr :=
  [.rw "streaming_maxburst" .dec, .rw "streaming_maxpacket" .dec, .rw "streaming_interval" .dec,
    .rw "function_name" .string]

/-- `uvc_frame_attr` -/
def uvcFrameAttr : List Attr :=
  [.rw "bFrameIndex" .dec, .rw "bmCapabilities" .dec, .rw "dwMinBitRate" .dec,
    .rw "dwMaxBitRate" .dec, .rw "dwMaxVideoFrameBufferSize" .dec,
    .rw "dwDefaultFrameInterval" .dec, .rw "dwFrameInterval" .dec, .rw "wHeight" .dec,
    .rw "wWidth" .dec]

/-- `uvc_format_attr` -/
def uvcFormatAttr : List Attr :=
  [.readOnly "bmaControls" .dec, .readOnly "bmInterlaceFlags" .dec,
    .readOnly "bAspectRatioY" .dec, .readOnly "bAspectRatioX" .dec,
    .rw "bDefaultFrameIndex" .dec, .readOnly "bFormatIndex" .dec, .rw "bBitsPerPixel" .dec,
    .rw "guidFormat" .guid]

/-- The pieces of a string between its slashes. -/
def splitSlash : CStr → Path
  | [] => [[]]
  | c :: s =>
    if c = '/' then [] :: splitSlash s
    else
      match splitSlash s with
      | [] => [[c]]
      | p :: ps => (c :: p) :: ps

/-- The directory of a frame, `frame.%d`. -/
def frameDir (id : ℤ) : CStr := "frame.".toList ++ printDec id

/-- The path of a format as the code prints it, with a slash at the end. -/
def uvcFormatPath (f : Func) (format : Path) : Path :=
  f.path ++ [f.name, uvcPathStreaming] ++ format ++ [[]]

/-- The path of a frame as the code prints it, with a slash at the end. -/
def uvcFramePath (f : Func) (format : Path) (id : ℤ) : Path :=
  f.path ++ [f.name, uvcPathStreaming] ++ format ++ [frameDir id, []]

/-! ## The masks -/

/-- Set one index of the mask of the format number `j`. -/
def setFrame (j i : ℕ) (f : Func) : Func :=
  { f with frames := f.frames.modify j (i :: ·) }

/-- `init_frames` -/
def initFrames (j : ℕ) (format : Path) : On κ Func Unit := do
  let f ← self
  require (uvcFormatPath f format).Fits .pathTooLong
  let ds ← io (call K (.scandir (uvcFormatPath f format)))
  forEach (fun d : Dirent =>
    match scanIndex "frame.".toList d.name with
    | .mismatch => pure ()
    -- `sscanf` has not set the index
    | .eof => undef
    | .index id => if 0 ≤ id ∧ id < maxFrames then update (setFrame j id.toNat) else undef)
    (ds.filter fileSelect)

/-- `get_formats_mask`: after an error the masks are read again the next time. -/
def getFormatsMask : On κ Func Unit := do
  let f ← self
  when (¬ f.formatsInitiated) do
    -- set before anything has been read, and taken back by an error
    update fun f => { f with formatsInitiated := true }
    forEach (fun (j, format) => do
      match ← attempt (initFrames K j format) with
      | .ok _ => pure ()
      | .error _ => update fun f => { f with formatsInitiated := false })
      [(0, uvcPathStreamingMjpeg), (1, uvcPathStreamingUncompressed)]

/-! ## Directories and links -/

/-- `uvc_create_dir`: every directory on the way is made unless it is there. -/
def uvcCreateDir (path : Path) : Io κ Unit := do
  require path.Fits .pathTooLong
  -- a slash at the end makes no directory of its own
  let path := if path.getLast? = some [] then path.dropLast else path
  forEach (fun p => do
    match ← rawCall K (.mkdir p) with
    | .ok _ => pure ()
    | .error e => require (e = .eexist) (usbgTranslateError e)) path.inits.tail

/-- `uvc_link` -/
def uvcLink (path target from_ : Path) : Io κ Unit := do
  require (path ++ target).Fits .pathTooLong
  require (path ++ from_).Fits .pathTooLong
  call K (.symlink (path ++ target) (path ++ from_))

/-- The part of `uvc_set_class` that links a format to the header if it is there. -/
def uvcLinkFormat (path format from_ : Path) : Io κ Unit := do
  require (path ++ format).Fits .pathTooLong
  match ← rawCall K (.stat (path ++ format)) with
  | .ok _ => uvcLink K path format from_
  | .error _ => pure ()

/-- `uvc_set_class` -/
def uvcSetClass (cs : CStr) : On κ Func Unit := do
  let f ← self
  let path := f.path ++ [f.name, cs]
  io (do
    require path.Fits .pathTooLong
    require (path ++ uvcPathHeader).Fits .pathTooLong
    uvcCreateDir K (path ++ uvcPathHeader)
    when (uvcPathStreaming <+: cs) do
      uvcLinkFormat K path uvcPathStreamingUncompressed (uvcPathHeader ++ ["u".toList])
      uvcLinkFormat K path uvcPathStreamingMjpeg (uvcPathHeader ++ ["m".toList])
      uvcLink K path uvcPathHeader (uvcPathClass "hs")
    uvcLink K path uvcPathHeader (uvcPathClass "fs")
    uvcLink K path uvcPathHeader (uvcPathClass "ss"))

/-! ## Import -/

/-- `usbg_f_uvc_set_config_attr_val` -/
def usbgFUvcSetConfigAttrVal (f : Func) (a : Attr) (val : AttrVal) : Io κ Unit := do
  require (f.path ++ [f.name, []]).Fits .pathTooLong
  a.kind.set K (f.path ++ [f.name, []]) [] a.name val

/-- `usbg_f_uvc_set_frame_attr_val` -/
def usbgFUvcSetFrameAttrVal (f : Func) (format : Path) (id : ℤ) (a : Attr) (val : AttrVal) :
    Io κ Unit := do
  require (uvcFramePath f format id).Fits .pathTooLong
  a.kind.set K (uvcFramePath f format id) [] a.name val

/-- `usbg_f_uvc_set_format_attr_val` -/
def usbgFUvcSetFormatAttrVal (f : Func) (format : Path) (a : Attr) (val : AttrVal) :
    Io κ Unit := do
  require (uvcFormatPath f format).Fits .pathTooLong
  a.kind.set K (uvcFormatPath f format) [] a.name val

/-- `usbg_f_uvc_create_frame` without attributes, the mask having been looked at -/
def usbgFUvcCreateFrame (format : Path) (j i : ℕ) : On κ Func Unit := do
  let f ← self
  require (uvcFramePath f format i).Fits .pathTooLong
  io (uvcCreateDir K (uvcFramePath f format i))
  update (setFrame j i)

/-- One round of the loop of `uvc_import_format`, for the format number `j`. -/
def uvcImportFrame (format : Path) (j i : ℕ) (node : Setting) : On κ Func Unit := do
  require (node.isGroup) .invalidType
  let f ← self
  let frames ← deref f.frames[j]?
  -- the row has 16 entries, however long the list is
  (if maxFrames ≤ i then undef
    else when (i ∉ frames) (usbgFUvcCreateFrame K format j i))
  io (importTable uvcFrameAttr (usbgFUvcSetFrameAttrVal K f format i) node)

/-- `uvc_import_format` -/
def uvcImportFormat (format : Path) (j : ℕ) (root : Setting) : On κ Func Unit := do
  match root.getMember "frames".toList with
  | none => fail .invalidParam
  | some framesNode =>
    require (framesNode.isList) .invalidType
    forEach (fun ni : Setting × ℕ => uvcImportFrame K format j ni.2 ni.1) framesNode.elems.zipIdx

/-- `uvc_import_config` -/
def uvcImportConfig (root : Setting) : On κ Func Unit := do
  match root.getMember "config".toList with
  | none => fail .invalidParam
  | some configNode =>
    require (configNode.isGroup) .invalidType
    let f ← self
    io (importTable uvcConfigAttr (usbgFUvcSetConfigAttrVal K f) configNode)

/-- One round of the loop of `uvc_libconfig_import`: the directory of a format is its name and,
below that, the first letter of the name. -/
def uvcImportFormatNode (j : ℕ) (name : CStr) (node : Setting) : On κ Func Unit := do
  require (node.isGroup) .invalidType
  let format : Path := [name, name.take 1]
  require format.Fits .pathTooLong
  uvcImportFormat K format j node
  let f ← self
  io (importTable uvcFormatAttr (usbgFUvcSetFormatAttrVal K f format) node)

/-- `uvc_libconfig_import` -/
def uvcLibconfigImport (root : Setting) : On κ Func Unit := do
  match root.getMember "formats".toList with
  | none => fail .invalidParam
  | some formatsNode =>
    require (formatsNode.isGroup) .invalidType
    getFormatsMask K
    forEach (fun mi : (CStr × Setting) × ℕ => uvcImportFormatNode K mi.2 mi.1.1 mi.1.2)
      formatsNode.members.zipIdx
    uvcImportConfig K root
    -- the links are made only when everything else has been imported
    uvcSetClass K uvcPathControl
    uvcSetClass K uvcPathStreaming

/-! ## Attributes -/

/-- `usbg_write_dec` for a file in the directory of a format, which is given as one string -/
def uvcWriteDec (path : Path) (format file : CStr) (v : ℤ) : Io κ Unit :=
  usbgWriteDec K (path ++ (splitSlash format).dropLast) ((splitSlash format).getLastD []) file v

/-- `uvc_set_frame` -/
def uvcSetFrame (formatPath : Path) (format : CStr) (attrs : UvcFrameAttrs) : Io κ Unit := do
  let name := frameDir attrs.bFrameIndex
  let framePath := formatPath ++ splitSlash format
  require framePath.Fits .pathTooLong
  require (framePath ++ [name]).Fits .pathTooLong
  uvcCreateDir K (framePath ++ [name])
  usbgWriteDec K framePath name "dwFrameInterval".toList attrs.dwFrameInterval
  usbgWriteDec K framePath name "dwDefaultFrameInterval".toList attrs.dwDefaultFrameInterval
  usbgWriteDec K framePath name "dwMaxVideoFrameBufferSize".toList attrs.dwMaxVideoFrameBufferSize
  usbgWriteDec K framePath name "dwMinBitRate".toList attrs.dwMinBitRate
  usbgWriteDec K framePath name "dwMaxBitRate".toList attrs.dwMaxBitRate
  usbgWriteDec K framePath name "wHeight".toList attrs.wHeight
  usbgWriteDec K framePath name "wWidth".toList attrs.wWidth

/-- `uvc_set_format` -/
def uvcSetFormat (formatPath : Path) (attrs : UvcFormatAttrs) : Io κ Unit :=
  uvcWriteDec K formatPath attrs.format "bDefaultFrameIndex".toList attrs.bDefaultFrameIndex

/-- Run a function and only print its error. -/
def logError (m : Io κ Unit) : Io κ Unit := do
  let _ ← attempt m
  pure ()

/-- `uvc_set_streaming`: an error in a frame is only printed. -/
def uvcSetStreaming (funcPath : Path) (attrs : UvcFormatAttrs) : Io κ Unit := do
  let streamingPath := funcPath ++ [uvcPathStreaming]
  require streamingPath.Fits .pathTooLong
  forEach (fun fr => logError (uvcSetFrame K streamingPath attrs.format fr)) attrs.frames
  uvcSetFormat K streamingPath attrs

/-- `usbg_f_uvc_set_attrs`: an error in a format is only printed. -/
def usbgFUvcSetAttrs (formats : List UvcFormatAttrs) : On κ Func Unit := do
  let f ← self
  let path := f.path ++ [f.name]
  require path.Fits .pathTooLong
  io (forEach (fun a => logError (uvcSetStreaming K path a)) formats)
  uvcSetClass K uvcPathControl
  uvcSetClass K uvcPathStreaming

/-- `uvc_set_attrs` -/
def uvcSetAttrs (attrs : FunctionAttrs) : On κ Func Unit :=
  match attrs with
  | .uvc formats => usbgFUvcSetAttrs K formats
  | _ => undef

/-! ## Removal -/

/-- `remove_dir_content`; what cannot be removed is left. -/
def removeDirContent (dir : Path) : Io κ Unit := do
  match ← rawCall K (.nftw dir) with
  | .ok ps => forEach (fun p => tryCall K (.remove (dir ++ p))) (ps.filter (· ≠ []))
  | .error _ => fail .pathTooLong

/-- `remove_dir` -/
def removeDir (dir : Path) : Io κ Unit := do
  match ← rawCall K (.nftw dir) with
  | .ok ps => forEach (fun p => tryCall K (.remove (dir ++ p))) ps
  | .error _ => fail .pathTooLong

/-- `uvc_remove` -/
def uvcRemove (_opts : RmOpts) : On κ Func Unit := do
  let f ← self
  let path := f.path ++ [f.name]
  let streamingPath := path ++ [uvcPathStreaming]
  let controlPath := path ++ [uvcPathControl]
  io (do
    require path.Fits .pathTooLong
    require streamingPath.Fits .pathTooLong
    require controlPath.Fits .pathTooLong
    removeDirContent K streamingPath
    removeDirContent K controlPath
    removeDir K streamingPath
    removeDir K controlPath)

end Libusbgx
