import Libusbgx.Base.Bytes
import Libusbgx.Source.Function.Export

/-!
# Audio

The attributes of an audio function are a C structure.  The loops of `usbg_f_uac2_set_attrs` and
`usbg_f_uac2_get_attrs` take a pointer to each of its fields for a pointer to a union, and the callbacks
take that for one to an `int`, a `bool` or a string.
-/

namespace Libusbgx

open Prog

variable {κ : Type} (K : Kernel κ)

/-! ## The structure -/

/-- The types of the fields of `struct usbg_f_uac2_attrs`; a `short` is an `aligned_short` or, what is
the same type, an `aligned_uchar`. -/
inductive CType where
  | int | uint | short | bool | string
deriving DecidableEq, Repr

/-- `sizeof` -/
def CType.size : CType → ℕ
  | .int | .uint => 4
  | .short => 2
  | .bool => 1
  | .string => 8

/-- The alignment; that of a `short` is raised to the size of an `int`. -/
def CType.align : CType → ℕ
  | .int | .uint | .short => 4
  | .bool => 1
  | .string => 8

/-- The fields in the order of the structure, which is that of `uac2_attr`. -/
def uac2Fields : List (Attr × CType) :=
  uac2Attr.zip
    [.int, .int, .int, .int, .int, .int, .short, .short, .string, .uint, .uint, .bool, .bool, .short, .short,
      .short, .bool, .bool, .short, .short, .short, .string]

/-- A field at its offset. -/
structure CField where
  attr : Attr
  type : CType
  offset : ℕ
deriving DecidableEq, Repr

/-- `offsetof`: every field is at the next offset that its alignment allows, from `n` on. -/
def layout (n : ℕ) : List (Attr × CType) → List CField
  | [] => []
  | (a, t) :: fields =>
    let offset := (n + t.align - 1) / t.align * t.align
    { attr := a, type := t, offset } :: layout (offset + t.size) fields

/-- The fields of `struct usbg_f_uac2_attrs`. -/
def uac2Layout : List CField := layout 0 uac2Fields

/-- A `struct usbg_f_uac2_attrs` in memory.  The eight bytes of a pointer to a string are not kept; at
its offset is the string, or `none` for the null pointer. -/
structure Uac2Attrs where
  bytes : Bytes
  strings : ℕ → Option CStr

namespace Uac2Attrs

/-- What a callback gets that takes the pointer for one to the type of its attribute. -/
def load (attrs : Uac2Attrs) (kind : AttrKind) (offset : ℕ) : AttrVal :=
  match kind with
  | .dec => .int (attrs.bytes.toInt offset 4)
  | .bool => .bool (attrs.bytes offset ≠ 0)
  | _ => .string (attrs.strings offset)

/-- What a callback leaves that has read the value. -/
def store (attrs : Uac2Attrs) (offset : ℕ) (val : AttrVal) : Uac2Attrs :=
  match val with
  | .int v => { attrs with bytes := attrs.bytes.store offset 4 (v % 2 ^ 32).toNat }
  | .bool b => { attrs with bytes := attrs.bytes.store offset 1 (if b then 1 else 0) }
  | .string s => { attrs with strings := fun o => if o = offset then s else attrs.strings o }
  | _ => attrs

variable {attrs : Uac2Attrs} {offset : ℕ}

@[simp] lemma load_dec : attrs.load .dec offset = .int (attrs.bytes.toInt offset 4) := rfl

@[simp] lemma load_bool : attrs.load .bool offset = .bool (attrs.bytes offset ≠ 0) := rfl

@[simp] lemma load_string : attrs.load .string offset = .string (attrs.strings offset) := rfl

@[simp] lemma bytes_store_int (v : ℤ) :
    (attrs.store offset (.int v)).bytes = attrs.bytes.store offset 4 (v % 2 ^ 32).toNat := rfl

@[simp] lemma bytes_store_bool (b : Bool) :
    (attrs.store offset (.bool b)).bytes = attrs.bytes.store offset 1 (if b then 1 else 0) := rfl

@[simp] lemma strings_store_string (s : Option CStr) : (attrs.store offset (.string s)).strings offset = s := if_pos rfl

end Uac2Attrs

/-- `usbg_f_uac2_set_attrs` -/
def usbgFUac2SetAttrs (f : Func) (attrs : Uac2Attrs) : Io κ Unit :=
  forEach (fun e : CField => setAttrVal K f e.attr (attrs.load e.attr.kind e.offset)) uac2Layout

/-- `usbg_f_uac2_get_attrs` -/
def usbgFUac2GetAttrs (f : Func) (attrs : Uac2Attrs) : Io κ Uac2Attrs :=
  uac2Layout.foldlM (fun attrs (e : CField) => do
    let val ← getAttrVal K f e.attr
    pure (attrs.store e.offset val)) attrs

/-! ## The fields -/

/-- The value of a field, by its own type. -/
def CField.value (e : CField) (attrs : Uac2Attrs) : AttrVal :=
  match e.type with
  | .int => .int (attrs.bytes.toInt e.offset 4)
  | .uint => .int (attrs.bytes.toNat e.offset 4)
  | .short => .int (attrs.bytes.toInt e.offset 2)
  | .bool => .bool (attrs.bytes e.offset ≠ 0)
  | .string => .string (attrs.strings e.offset)

lemma uac2Layout_offsets : uac2Layout.map CField.offset =
    [0, 4, 8, 12, 16, 20, 24, 28, 32, 40, 44, 48, 49, 52, 56, 60, 62, 63, 64, 68, 72, 80] := by
  decide

end Libusbgx
