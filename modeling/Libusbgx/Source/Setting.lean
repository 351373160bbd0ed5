import Libusbgx.Base.CStr
import Mathlib.Algebra.Group.Int.Defs

/-!
# Setting trees

The part of libconfig that the schemes use: the tree a scheme is parsed into, the accessors
the import reads it with, and `config_setting_add`, with which the export builds it.
-/

namespace Libusbgx

/-- `config_setting_t`.  The value of a floating-point setting is never read. -/
inductive Setting where
  | int (v : ℤ)
  | int64 (v : ℤ)
  | float
  | bool (b : Bool)
  | string (s : CStr)
  | group (members : List (CStr × Setting))
  | list (elems : List Setting)
  | array (elems : List Setting)
deriving Repr

namespace Setting

/-- The settings `config_setting_get_elem` counts through. -/
def elems : Setting → List Setting
  | .group ms => ms.map Prod.snd
  | .list es => es
  | .array es => es
  | _ => []

/-- The named members of a group. -/
def members : Setting → List (CStr × Setting)
  | .group ms => ms
  | _ => []

/-- `config_setting_length` -/
def length (s : Setting) : ℕ := s.elems.length

/-- `config_setting_get_elem` -/
def getElem (s : Setting) (i : ℕ) : Option Setting := s.elems[i]?

/-- `config_setting_get_member` -/
def getMember (s : Setting) (name : CStr) : Option Setting :=
  (s.members.find? (·.1 = name)).map Prod.snd

/-- `config_setting_get_string`: `NULL` for a setting that is not a string -/
def getString : Setting → Option CStr
  | .string s => some s
  | _ => none

/-- `config_setting_get_int`: 0 for a setting that is no number, and for a 64-bit number that
does not fit -/
def getInt : Setting → ℤ
  | .int v => v
  | .int64 v => if -2 ^ 31 ≤ v ∧ v < 2 ^ 31 then v else 0
  | _ => 0

/-- `usbg_config_is_int` -/
def isInt : Setting → Bool
  | .int _ => true
  | _ => false

/-- `usbg_config_is_string` -/
def isString : Setting → Bool
  | .string _ => true
  | _ => false

/-- `config_setting_is_group` -/
def isGroup : Setting → Bool
  | .group _ => true
  | _ => false

/-- `config_setting_is_list` -/
def isList : Setting → Bool
  | .list _ => true
  | _ => false

/-- The members of a group after `config_setting_add`, which refuses a name that is there. -/
def addMember (ms : List (CStr × Setting)) (name : CStr) (s : Setting) :
    Option (List (CStr × Setting)) :=
  if name ∈ ms.map Prod.fst then none else some (ms ++ [(name, s)])

end Setting

/-- What `config_read` makes of a stream: the root group, or the text and line of a syntax
error. -/
inductive ConfigFile where
  | parsed (root : Setting)
  | failed (text : CStr) (line : ℕ)
deriving Repr

end Libusbgx
