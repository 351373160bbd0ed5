import Libusbgx.Source.Function.Export

/-!
# Getters of strings

The string attributes that can be read in two ways: into memory that the library allocates, and into a
buffer of the caller.  A getter of the second kind returns the string in the buffer and its length.
-/

namespace Libusbgx

open Prog

variable {κ : Type} (K : Kernel κ)

/-- What the getters with a buffer have in common. -/
def readIntoBuffer (path : Path) (name file : CStr) (len : ℕ) : Io κ (CStr × ℕ) := do
  let buf ← usbgReadStringLimited K path name file len
  pure (buf, buf.length)

/-- The entry of `ms_lun_attr` for the file behind a unit. -/
def msLunFile : Attr := .rw "file" .string

/-- `usbg_f_ms_get_lun_file` -/
def usbgFMsGetLunFile (lunId : ℤ) : On κ Func AttrVal := usbgFMsGetLunAttrVal K lunId msLunFile

/-- `usbg_f_ms_get_lun_file_s` -/
def usbgFMsGetLunFileS (lunId : ℤ) (len : ℕ) : On κ Func (CStr × ℕ) := do
  let f ← self
  require (lunPath f lunId).Fits .pathTooLong
  io (readIntoBuffer K (lunPath f lunId) [] "filename".toList len)

/-- `usbg_f_net_get_ifname_s` -/
def usbgFNetGetIfnameS (f : Func) (len : ℕ) : Io κ (CStr × ℕ) :=
  readIntoBuffer K f.path f.name "ifname".toList len

/-- The entry of `midi_attr` for the name of the device. -/
def midiId : Attr := .rw "id" .string

/-- `usbg_f_midi_get_attr_val` for the name of the device -/
def usbgFMidiGetId (f : Func) : Io κ AttrVal := getAttrVal K f midiId

/-- `usbg_f_midi_get_id_s` -/
def usbgFMidiGetIdS (f : Func) (len : ℕ) : Io κ (CStr × ℕ) := readIntoBuffer K f.path f.name "id".toList len

/-- `usbg_f_phonet_get_ifname` -/
def usbgFPhonetGetIfname (f : Func) : Io κ CStr := usbgReadStringAlloc K f.path f.name "ifname".toList

/-- `usbg_f_phonet_get_ifname_s` -/
def usbgFPhonetGetIfnameS (f : Func) (len : ℕ) : Io κ (CStr × ℕ) :=
  readIntoBuffer K f.path f.name "ifname".toList len

end Libusbgx
