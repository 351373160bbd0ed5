import Libusbgx.Source.Function.Uvc

/-!
# The table of function types
-/

namespace Libusbgx

variable {κ : Type} (K : Kernel κ)

/-- The operations of the serial types. -/
def serialOps : FunctionOps κ :=
  { remove := none, setAttrs := some serialSetAttrs, imprt := some noImport }

/-- The operations of the types that only have a name. -/
def nameOps : FunctionOps κ :=
  { remove := none, setAttrs := some nameSetAttrs, imprt := some noImport }

/-- The operations of the network types. -/
def etherOps : FunctionOps κ :=
  { remove := none, setAttrs := some (etherSetAttrs K), imprt := some (tableImport K netAttr) }

/-- The operations of the other types with a table. -/
def tableOps (table : List Attr) : FunctionOps κ :=
  { remove := none, setAttrs := some (tableSetAttrs K table),
    imprt := some (tableImport K table) }

/-- `function_types` -/
def functionOps : FunctionType → FunctionOps κ
  | .serial | .acm | .obex => serialOps
  | .ecm | .subset | .ncm | .eem | .rndis => etherOps K
  | .phonet | .ffs | .ninePfs => nameOps
  | .massStorage =>
    { remove := some (msRemove K), setAttrs := some (msSetAttrs K),
      imprt := some (msLibconfigImport K) }
  | .midi => tableOps K midiAttr
  | .loopback =>
    { remove := none, setAttrs := some (tableSetAttrs K loopbackAttr),
      imprt := some (loopbackLibconfigImport K) }
  | .hid => tableOps K hidAttr
  | .uac2 => tableOps K uac2Attr
  | .uvc =>
    { remove := some (uvcRemove K), setAttrs := some (uvcSetAttrs K),
      imprt := some (uvcLibconfigImport K) }
  | .printer => { remove := none, setAttrs := none, imprt := none }

end Libusbgx
