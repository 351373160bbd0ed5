import Libusbgx.Source.Objects

/-!
# Function labels

In a scheme a function goes by a label: one the user has chosen, or the type and the instance
with `_` between them.
-/

namespace Libusbgx

open Prog

variable {κ : Type}

/-- `USBG_MAX_NAME_LENGTH` -/
def usbgMaxNameLength : ℕ := 40

/-- `generate_function_label` -/
def generateFunctionLabel (f : Func) : CStr := f.type.name ++ '_' :: f.inst

/-- The part of `split_function_label` after the search: `len` characters stand before the `_`, which
`inst` follows. -/
def splitLabelAt (label inst : CStr) (len : ℤ) : Io κ (FunctionType × CStr) := do
  require (¬ (usbgMaxNameLength ≤ len ∨ label.head? = some '_')) .notFound
  if len < 0 then undef
  else
    match usbgLookupFunctionType (label.take len.toNat) with
    | none => fail .notFound
    | some type => pure (type, inst)

/-- `split_function_label`.  The code subtracts from the place of the `_` without asking whether
there is one, and keeps the difference in an `int`. -/
def splitFunctionLabel (label : CStr) : Io κ (FunctionType × CStr) := do
  let floor ← deref (cutFirst '_' label)
  splitLabelAt label floor.2 (toInt floor.1.length)

/-- `usbg_lookup_function` -/
def usbgLookupFunction (g : Gadget) (label : CStr) : Io κ (Option Func) :=
  match g.functions.find? (·.label = some label) with
  | some f => pure (some f)
  | none => do
    match ← attempt (splitFunctionLabel label) with
    | .ok (type, inst) => pure (usbgGetFunction g type inst)
    | .error _ => pure none

end Libusbgx
