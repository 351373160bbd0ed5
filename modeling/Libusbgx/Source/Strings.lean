import Libusbgx.Source.Common
import Libusbgx.Source.Objects

/-!
# Reading and exporting strings

The strings of a gadget or a configuration lie in one directory for each language.  The languages
are listed by reading the names of these directories as numbers; the directory of a language is
found by printing its number.
-/

namespace Libusbgx

open Prog

variable {κ : Type} (K : Kernel κ)

/-! ## Reading -/

/-- The opening of the directory of a language, with which both parsers of strings start. -/
def openStrsDir (path : Path) (name : CStr) (lang : ℤ) : Io κ Path := do
  let spath := path ++ [name, stringsDir, langDir lang]
  require spath.Fits .pathTooLong
  call K (.opendir spath)
  pure spath

/-- `usbg_parse_gadget_strs` -/
def usbgParseGadgetStrs (path : Path) (name : CStr) (lang : ℤ) : Io κ GadgetStrs := do
  let spath ← openStrsDir K path name lang
  let manufacturer ← usbgReadStringAlloc K spath [] "manufacturer".toList
  let product ← usbgReadStringAlloc K spath [] "product".toList
  let serial ← usbgReadStringAlloc K spath [] "serialnumber".toList
  pure { manufacturer := some manufacturer, product := some product, serial := some serial }

/-- `usbg_parse_config_strs` -/
def usbgParseConfigStrs (path : Path) (name : CStr) (lang : ℤ) : Io κ ConfigStrs := do
  let spath ← openStrsDir K path name lang
  let configuration ← usbgReadStringAlloc K spath [] "configuration".toList
  pure { configuration := some configuration }

/-- `usbg_get_gadget_strs` -/
def usbgGetGadgetStrs (g : Gadget) (lang : ℤ) : Io κ GadgetStrs :=
  usbgParseGadgetStrs K g.path g.name lang

/-- `usbg_get_config_strs` -/
def usbgGetConfigStrs (c : Config) (lang : ℤ) : Io κ ConfigStrs :=
  usbgParseConfigStrs K c.path c.name lang

/-! ## Languages -/

/-- The language that `usbg_get_strs_langs_by_path` reads off the name of a directory. -/
def langOf (name : CStr) : Option ℤ :=
  let r := strtoul 16 name
  if r.2 = [] ∧ r.1 < 65535 then some r.1 else none

/-- `usbg_get_strs_langs_by_path`: the array, with the 0 at its end -/
def usbgGetStrsLangsByPath (path : Path) (name : CStr) : Io κ (List ℤ) := do
  let spath := path ++ [name, stringsDir]
  require spath.Fits .pathTooLong
  let names ← scandir K spath fileSelect
  match names.mapM langOf with
  | some langs => pure (langs ++ [0])
  | none => fail .otherError

/-- `usbg_get_gadget_strs_langs` -/
def usbgGetGadgetStrsLangs (g : Gadget) : Io κ (List ℤ) := usbgGetStrsLangsByPath K g.path g.name

/-- `usbg_get_config_strs_langs` -/
def usbgGetConfigStrsLangs (c : Config) : Io κ (List ℤ) := usbgGetStrsLangsByPath K c.path c.name

/-! ## Export -/

/-- The loop of both exports of strings over the array of languages, up to the first 0.  The
settings are those that are added to the list. -/
def exportLangs (exportLang : ℤ → Io κ Setting) : List ℤ → Io κ (List Setting)
  | [] => undef
  | lang :: langs =>
    if lang = 0 then pure []
    else do
      let node ← exportLang lang
      let nodes ← exportLangs exportLang langs
      pure (node :: nodes)

/-- `usbg_export_gadget_strs_lang`.  The strings are freed also where none have been set, and once
more where the parser has freed them already; only a failure to read the first of them, when all
are null, does no harm. -/
def usbgExportGadgetStrsLang (g : Gadget) (lang : ℤ) : Io κ Setting := do
  let spath ← onFail (openStrsDir K g.path g.name lang) undef
  let manufacturer ← usbgReadStringAlloc K spath [] "manufacturer".toList
  let product ← onFail (usbgReadStringAlloc K spath [] "product".toList) undef
  let serial ← onFail (usbgReadStringAlloc K spath [] "serialnumber".toList) undef
  pure (.group [("lang".toList, .int lang), ("manufacturer".toList, .string manufacturer),
    ("product".toList, .string product), ("serialnumber".toList, .string serial)])

/-- `usbg_export_gadget_strings` -/
def usbgExportGadgetStrings (g : Gadget) : Io κ (List Setting) := do
  let langs ← usbgGetGadgetStrsLangs K g
  exportLangs (usbgExportGadgetStrsLang K g) langs

/-- `usbg_export_config_strs_lang` -/
def usbgExportConfigStrsLang (c : Config) (lang : ℤ) : Io κ Setting := do
  let strs ← usbgGetConfigStrs K c lang
  let configuration ← deref strs.configuration
  pure (.group [("lang".toList, .int lang), ("configuration".toList, .string configuration)])

/-- `usbg_export_config_strings` -/
def usbgExportConfigStrings (c : Config) : Io κ (List Setting) := do
  let langs ← usbgGetConfigStrsLangs K c
  exportLangs (usbgExportConfigStrsLang K c) langs

end Libusbgx
