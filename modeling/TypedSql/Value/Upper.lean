import TypedSql.Text.Upper
import TypedSql.Value.Basic

/-!
# Upper case of values

Texts and bytes have an upper-case form; no other value has one. Of bytes, only those of ASCII
letters change.
-/

namespace TypedSql.Value

/-- The upper-case form of a byte. -/
def upperOctet (octet : UInt8) : UInt8 :=
  if 0x61 ≤ octet && octet ≤ 0x7a then octet - 0x20 else octet

/-- The upper-case form of a text or of bytes. -/
def upper? : Value → Option Value
  | bytes octets => some (bytes (octets.map upperOctet))
  | value => value.asText?.map fun chars => text (Text.upper chars)

end TypedSql.Value
