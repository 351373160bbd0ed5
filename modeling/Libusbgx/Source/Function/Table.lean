import Libusbgx.Source.Common
import Libusbgx.Source.Ops

/-!
# Table-driven function types

Most function types keep their attributes in a table with, for every attribute, the name of
its file and the callbacks that write it and read it from a setting.  An `AttrKind` stands for
such a set of callbacks.  The network, MIDI, HID, audio and loopback functions are tables;
the tables of the mass storage and video functions are used by their own modules.
-/

namespace Libusbgx

open Prog

variable {κ : Type} (K : Kernel κ)

/-! ## Members of a setting -/

/-- What an import callback makes of a member: the value that was found, or `none` where it
returns 0, which its callers take for a member that is not there. -/
abbrev NodeResult (α : Type) : Type := Except UsbgError (Option α)

/-- `usbg_get_config_node_int` -/
def usbgGetConfigNodeInt (root : Setting) (name : CStr) : NodeResult ℤ :=
  match root.getMember name with
  | none => .ok none
  | some node => if node.isInt then .ok (some node.getInt) else .error .invalidType

/-- `usbg_get_config_node_bool`, which returns 0 also when it has found the member -/
def usbgGetConfigNodeBool (root : Setting) (name : CStr) : NodeResult Bool :=
  match root.getMember name with
  | none => .ok none
  | some (.int _) => .ok none
  | some (.bool _) => .ok none
  | some _ => .error .invalidType

/-- `usbg_get_config_node_string` -/
def usbgGetConfigNodeString (root : Setting) (name : CStr) : NodeResult CStr :=
  match root.getMember name with
  | none => .ok none
  | some (.string s) => .ok (some s)
  | some _ => .error .invalidType

/-! ## Ethernet addresses -/

/-- The value of a hexadecimal digit. -/
def hexDigit (c : Char) : Option ℕ := digitOf 16 c

/-- `ether_aton_r`, from the octet number `cnt` on -/
def etherAtonFrom (s : CStr) : (cnt : ℕ) → Option (List UInt8)
  | 0 => some []
  | cnt + 1 => do
    let c ← s.head?
    let d ← hexDigit c
    -- an octet has one digit or two, and ends at a colon or, for the last, at a blank
    let ends : CStr → Bool := fun t =>
      match cnt with
      | 0 => t.head?.all isSpace
      | _ + 1 => t.head? = some ':'
    if ends s.tail then
      let rest ← etherAtonFrom s.tail.tail cnt
      pure (UInt8.ofNat d :: rest)
    else
      let c' ← s.tail.head?
      let d' ← hexDigit c'
      if 0 < cnt ∧ s.tail.tail.head? ≠ some ':' then none
      else
        let rest ← etherAtonFrom s.tail.tail.tail cnt
        pure (UInt8.ofNat (d * 16 + d') :: rest)

/-- `ether_aton_r` -/
def etherAton (s : CStr) : Option (List UInt8) := etherAtonFrom s 6

/-- `usbg_ether_ntoa_r` -/
def usbgEtherNtoa (octets : List UInt8) : CStr :=
  [':'].intercalate (octets.map fun o => printHex 2 o.toNat)

/-- `usbg_get_config_node_ether_addr` -/
def usbgGetConfigNodeEtherAddr (root : Setting) (name : CStr) : NodeResult (List UInt8) :=
  match usbgGetConfigNodeString root name with
  | .error e => .error e
  | .ok none => .ok none
  | .ok (some s) =>
    match etherAton s with
    | some octets => .ok (some octets)
    | none => .error .invalidValue

/-! ## Report descriptors -/

/-- The byte a setting in a report descriptor stands for. -/
def reportByte (node : Setting) : Except UsbgError Char :=
  if node.isInt then
    if node.getInt < 0 ∨ 255 < node.getInt then .error .invalidValue
    else .ok (Char.ofNat node.getInt.toNat)
  else .error .invalidType

/-- `hid_get_config_node_report` -/
def hidGetConfigNodeReport (root : Setting) (name : CStr) : NodeResult CStr :=
  match root.getMember name with
  | none => .ok none
  | some list =>
    if list.isList then (list.elems.mapM reportByte).map some
    else .error .invalidType

/-- `hid_set_report`: an empty descriptor is written as one zero byte. -/
def hidSetReport (path : Path) (name attr desc : CStr) : Io κ Unit :=
  usbgWriteBuf K path name attr (if desc = [] then ['\x00'] else desc)

/-! ## GUIDs -/

/-- The conversion `%02hhx` of `sscanf`: blanks are skipped, and at most two characters are
read, which a sign and a leading `0x` count towards. -/
def scanHexByte (s : CStr) : Option (Char × CStr) :=
  let s := s.dropWhile isSpace
  let signed := s.head? = some '-' ∨ s.head? = some '+'
  let body := (if signed then s.tail else s).take (if signed then 1 else 2)
  let rest := (if signed then s.tail else s)
  let byte (v : ℕ) : Char :=
    Char.ofNat (((if s.head? = some '-' then -(v : ℤ) else v) % 256).toNat)
  match body with
  | '0' :: x :: _ =>
    if x = 'x' ∨ x = 'X' then some (byte 0, rest.drop 2)
    else
      match hexDigit x with
      | some d => some (byte d, rest.drop 2)
      | none => some (byte 0, rest.drop 1)
  | c :: t =>
    match hexDigit c, t.head?.bind hexDigit with
    | some d, some d' => some (byte (d * 16 + d'), rest.drop 2)
    | some d, none => some (byte d, rest.drop 1)
    | none, _ => none
  | [] => none

/-- The numbers of bytes after which the format of `usbg_write_guid` has a dash. -/
def guidDashes : List ℕ := [4, 6, 8, 10]

/-- The `sscanf` of `usbg_write_guid`, when `n` of the 16 bytes are still to be read -/
def scanGuid (s : CStr) : (n : ℕ) → Option CStr
  | 0 => some []
  | n + 1 => do
    let s ← if 15 - n ∈ guidDashes then
        match s with
        | '-' :: t => some t
        | _ => none
      else some s
    let (b, t) ← scanHexByte s
    let bs ← scanGuid t n
    pure (b :: bs)

/-- `usbg_write_guid`; the string is not checked for the null pointer. -/
def usbgWriteGuid (path : Path) (name file : CStr) (buf : Option CStr) : Io κ Unit := do
  let buf ← deref buf
  require (buf.length = 36) .invalidParam
  match scanGuid buf 16 with
  | none => fail .invalidParam
  | some bin => usbgWriteBuf K path name file bin

/-! ## Tables -/

/-- The callbacks of an attribute. -/
inductive AttrKind where
  /-- `usbg_set_dec`, `usbg_get_config_node_int` -/
  | dec
  /-- `usbg_set_bool`, `usbg_get_config_node_bool` -/
  | bool
  /-- `usbg_set_string`, `usbg_get_config_node_string` -/
  | string
  /-- `usbg_set_ether_addr`, `usbg_get_config_node_ether_addr` -/
  | etherAddr
  /-- `hid_set_report`, `hid_get_config_node_report` -/
  | reportDesc
  /-- `usbg_set_guid`, `usbg_get_config_node_string` -/
  | guid
deriving DecidableEq, Repr

/-- An entry of an attribute table. -/
structure Attr where
  name : CStr
  ro : Bool
  kind : AttrKind
deriving DecidableEq, Repr

/-- An attribute that can be written. -/
def Attr.rw (name : String) (kind : AttrKind) : Attr := { name := name.toList, ro := false, kind }

/-- An attribute that cannot. -/
def Attr.readOnly (name : String) (kind : AttrKind) : Attr :=
  { name := name.toList, ro := true, kind }

/-- The `set` callback.  The union it is given holds a value of the attribute's own type. -/
def AttrKind.set (kind : AttrKind) (path : Path) (name attr : CStr) (val : AttrVal) :
    Io κ Unit :=
  match kind, val with
  | .dec, .int v => usbgWriteDec K path name attr v
  | .bool, .bool b => usbgWriteBool K path name attr b
  | .string, .string s => usbgWriteString K path name attr s
  | .etherAddr, .etherAddr o => usbgWriteString K path name attr (some (usbgEtherNtoa o))
  | .reportDesc, .reportDesc d => hidSetReport K path name attr d
  | .guid, .string s => usbgWriteGuid K path name attr s
  | _, _ => undef

/-- The `import` callback. -/
def AttrKind.imprt (kind : AttrKind) (root : Setting) (name : CStr) : NodeResult AttrVal :=
  match kind with
  | .dec => (usbgGetConfigNodeInt root name).map (Option.map .int)
  | .bool => (usbgGetConfigNodeBool root name).map (Option.map .bool)
  | .string | .guid => (usbgGetConfigNodeString root name).map (Option.map fun s => .string (some s))
  | .etherAddr => (usbgGetConfigNodeEtherAddr root name).map (Option.map .etherAddr)
  | .reportDesc => (hidGetConfigNodeReport root name).map (Option.map .reportDesc)

/-- The loop of an import over a table, where `set` writes one attribute. -/
def importTable (table : List Attr) (set : Attr → AttrVal → Io κ Unit) (root : Setting) :
    Io κ Unit :=
  forEach (fun a => do
    when (¬ a.ro) do
      match ← ofExcept (a.kind.imprt root a.name) with
      | none => pure ()
      | some val => set a val) table

/-- The loop of a `set_attrs` over a table, with the values in the order of the table. -/
def setTable (table : List Attr) (set : Attr → AttrVal → Io κ Unit) (vals : List AttrVal) :
    Io κ Unit :=
  if vals.length = table.length then
    forEach (fun av => when (¬ av.1.ro) (set av.1 av.2)) (table.zip vals)
  else undef

/-- Write an attribute whose file is in the directory of the function. -/
def setAttrVal (f : Func) (a : Attr) (val : AttrVal) : Io κ Unit :=
  a.kind.set K f.path f.name a.name val

/-! ## The function types -/

/-- `net_attr` -/
def netAttr : List Attr :=
  [.rw "dev_addr" .etherAddr, .rw "host_addr" .etherAddr, .readOnly "ifname" .string,
    .rw "qmult" .dec, .rw "class_" .dec, .rw "subclass" .dec, .rw "protocol" .dec]

/-- `midi_attr` -/
def midiAttr : List Attr :=
  [.rw "index" .dec, .rw "id" .string, .rw "in_ports" .dec, .rw "out_ports" .dec,
    .rw "buflen" .dec, .rw "qlen" .dec]

/-- `hid_attr`; nothing is ever read through the callbacks of the device number here. -/
def hidAttr : List Attr :=
  [.readOnly "dev" .dec, .rw "protocol" .dec, .rw "report_desc" .reportDesc,
    .rw "report_length" .dec, .rw "subclass" .dec]

/-- `uac2_attr` -/
def uac2Attr : List Attr :=
  [.rw "c_chmask" .dec, .rw "c_srate" .dec, .rw "c_ssize" .dec, .rw "p_chmask" .dec,
    .rw "p_srate" .dec, .rw "p_ssize" .dec, .rw "p_hs_bint" .dec, .rw "c_hs_bint" .dec,
    .rw "c_sync" .string, .rw "req_number" .dec, .rw "fb_max" .dec, .rw "p_mute_present" .bool,
    .rw "p_volume_present" .bool, .rw "p_volume_min" .dec, .rw "p_volume_max" .dec,
    .rw "p_volume_res" .dec, .rw "c_mute_present" .bool, .rw "c_volume_present" .bool,
    .rw "c_volume_min" .dec, .rw "c_volume_max" .dec, .rw "c_volume_res" .dec,
    .rw "function_name" .string]

/-- `loopback_attr_names` -/
def loopbackAttr : List Attr := [.rw "buflen" .dec, .rw "qlen" .dec]

/-- The `set_attrs` of a table-driven type. -/
def tableSetAttrs (table : List Attr) (attrs : FunctionAttrs) : On κ Func Unit := do
  let f ← self
  match attrs with
  | .table vals => io (setTable table (setAttrVal K f) vals)
  | _ => undef

/-- The `import` of a table-driven type. -/
def tableImport (table : List Attr) (root : Setting) : On κ Func Unit := do
  let f ← self
  io (importTable table (setAttrVal K f) root)

/-- `ether_set_attrs`: the name of the interface must be left empty. -/
def etherSetAttrs (attrs : FunctionAttrs) : On κ Func Unit :=
  match attrs with
  | .table [dev, host, .string ifname, qmult, class_, subclass, protocol] => do
    require (ifname.getD [] = []) .invalidParam
    tableSetAttrs K netAttr
      (.table [dev, host, .string ifname, qmult, class_, subclass, protocol])
  | _ => undef

/-- What the setters of a single attribute have in common; an enumerator outside of the table has no entry. -/
def setTableAttrVal (table : List Attr) (attr : ℕ) (val : AttrVal) : On κ Func Unit := do
  let f ← self
  let a ← deref table[attr]?
  if a.ro then fail .invalidParam
  else io (setAttrVal K f a val)

/-- `usbg_f_net_set_attr_val` -/
def usbgFNetSetAttrVal (attr : ℕ) (val : AttrVal) : On κ Func Unit := setTableAttrVal K netAttr attr val

/-- `usbg_f_midi_set_attr_val` -/
def usbgFMidiSetAttrVal (attr : ℕ) (val : AttrVal) : On κ Func Unit := setTableAttrVal K midiAttr attr val

/-- `usbg_f_hid_set_attr_val` -/
def usbgFHidSetAttrVal (attr : ℕ) (val : AttrVal) : On κ Func Unit := setTableAttrVal K hidAttr attr val

/-- `usbg_f_loopback_set_attr_val` -/
def usbgFLoopbackSetAttrVal (attr : ℕ) (val : ℤ) : On κ Func Unit := setTableAttrVal K loopbackAttr attr (.int val)

/-- `usbg_f_uac2_set_attr_val` -/
def usbgFUac2SetAttrVal (attr : ℕ) (val : AttrVal) : On κ Func Unit := setTableAttrVal K uac2Attr attr val

/-- `loopback_libconfig_import`: a member of any type is read as an integer. -/
def loopbackLibconfigImport (root : Setting) : On κ Func Unit := do
  let f ← self
  io (forEach (fun a : Attr => do
    match root.getMember a.name with
    | none => pure ()
    | some node =>
      require (0 ≤ node.getInt) .invalidParam
      setAttrVal K f a (.int node.getInt)) loopbackAttr)

/-! ## Types without files -/

/-- `serial_set_attrs` -/
def serialSetAttrs (attrs : FunctionAttrs) : On κ Func Unit :=
  match attrs with
  | .portNum n => require (n = 0) .invalidParam
  | _ => undef

/-- `phonet_set_attrs`, `ffs_set_attrs` and `p9fs_set_attrs` -/
def nameSetAttrs (attrs : FunctionAttrs) : On κ Func Unit :=
  match attrs with
  | .name s => require (s.getD [] = []) .invalidParam
  | _ => undef

/-- The `import` of a type without attributes to import -/
def noImport (_root : Setting) : On κ Func Unit := pure ()

end Libusbgx
