/-!
# Encodings of text

Bytes hold text in one of the Unicode encodings. A mark at the front tells which one; without a mark
the zeros among the first bytes do. `decode?` reads the characters behind the mark. Half of a
surrogate pair stands for itself, so only bytes out of place, cut off or out of range are no text.
-/

namespace TypedSql.Text

/-- The order of the bytes of a code unit. -/
inductive ByteOrder where
  | big
  | little
deriving DecidableEq, Repr

/-- The number that bytes make up in an order. -/
def ByteOrder.number (order : ByteOrder) (octets : List UInt8) : Nat :=
  let ordered := match order with
    | big => octets
    | little => octets.reverse
  ordered.foldl (fun total octet => 0x100 * total + octet.toNat) 0

/-- Whether a code unit is the first half of a pair. -/
def isHighHalf (unit : Nat) : Bool := 0xd800 ≤ unit && unit < 0xdc00

/-- Whether a code unit is the second half of a pair. -/
def isLowHalf (unit : Nat) : Bool := 0xdc00 ≤ unit && unit < 0xe000

/-- The code point that the two halves of a pair make up. -/
def pairCode (high low : Nat) : Nat := 0x10000 + (high - 0xd800) * 0x400 + (low - 0xdc00)

/-- The largest code point. -/
def maxCode : Nat := 0x10ffff

/-- The character with a code point; half a pair reads as the replacement character. -/
def charOfCode (code : Nat) : Char :=
  if isHighHalf code || isLowHalf code then '\ufffd' else Char.ofNat code

/-- An encoding of text. -/
inductive Encoding where
  | utf8
  | utf16 (order : ByteOrder)
  | utf32 (order : ByteOrder)
deriving DecidableEq, Repr

namespace Encoding

/-- The marks that tell an encoding; a longer mark comes before one that it starts with. -/
def marks : List (List UInt8 × Encoding) :=
  [([0, 0, 0xfe, 0xff], utf32 .big), ([0xff, 0xfe, 0, 0], utf32 .little),
    ([0xfe, 0xff], utf16 .big), ([0xff, 0xfe], utf16 .little), ([0xef, 0xbb, 0xbf], utf8)]

/-- The encoding of bytes without a mark, by which of the first four are zero. -/
def ofZeros (octets : List UInt8) : Encoding :=
  match octets.map fun octet => decide (octet = 0) with
  | true :: true :: _ :: _ :: _ => utf32 .big
  | true :: _ :: _ :: _ :: _ => utf16 .big
  | _ :: true :: true :: true :: _ => utf32 .little
  | _ :: true :: _ :: _ :: _ => utf16 .little
  | [true, _] => utf16 .big
  | [_, true] => utf16 .little
  | _ => utf8

/-- The encoding of bytes, and the bytes behind its mark. -/
def detect (octets : List UInt8) : Encoding × List UInt8 :=
  match marks.find? fun entry => entry.1.isPrefixOf octets with
  | some (mark, encoding) => (encoding, octets.drop mark.length)
  | none => (ofZeros octets, octets)

/-- The code points of UTF-8, where a character still lacks some bytes: what the ones before gave,
and the least code point that so many bytes may give. -/
def utf8Codes? : (missing code least : Nat) → List UInt8 → Option (List Nat)
  | 0, _, _, [] => some []
  | _ + 1, _, _, [] => none
  | 0, _, _, octet :: rest =>
    let lead := octet.toNat
    if lead < 0x80 then (utf8Codes? 0 0 0 rest).map (lead :: ·)
    else if lead < 0xc0 then none
    else if lead < 0xe0 then utf8Codes? 1 (lead % 0x20) 0x80 rest
    else if lead < 0xf0 then utf8Codes? 2 (lead % 0x10) 0x800 rest
    else if lead < 0xf8 then utf8Codes? 3 (lead % 0x08) 0x10000 rest
    else none
  | missing + 1, code, least, octet :: rest =>
    let code := 0x40 * code + octet.toNat % 0x40
    if octet.toNat / 0x40 ≠ 2 then none
    else if missing ≠ 0 then utf8Codes? missing code least rest
    else if code < least then none
    else (utf8Codes? 0 0 0 rest).map (code :: ·)

/-- The code units of two bytes each. -/
def units16? (order : ByteOrder) : List UInt8 → Option (List Nat)
  | [] => some []
  | first :: second :: rest => (units16? order rest).map (order.number [first, second] :: ·)
  | _ => none

/-- The code units of four bytes each. -/
def units32? (order : ByteOrder) : List UInt8 → Option (List Nat)
  | [] => some []
  | first :: second :: third :: fourth :: rest =>
    (units32? order rest).map (order.number [first, second, third, fourth] :: ·)
  | _ => none

/-- The code points of UTF-16 units: the two halves of a pair are one. -/
def joinPairs : List Nat → List Nat
  | high :: low :: rest =>
    if isHighHalf high && isLowHalf low then pairCode high low :: joinPairs rest
    else high :: joinPairs (low :: rest)
  | units => units

/-- The code points of bytes in an encoding. -/
def codes? (encoding : Encoding) (octets : List UInt8) : Option (List Nat) :=
  match encoding with
  | utf8 => utf8Codes? 0 0 0 octets
  | utf16 order => (units16? order octets).map joinPairs
  | utf32 order => units32? order octets

/-- The characters that bytes encode. -/
def decode? (octets : List UInt8) : Option (List Char) :=
  let (encoding, body) := detect octets
  (encoding.codes? body).bind fun codes =>
    if codes.all (· ≤ maxCode) then some (codes.map charOfCode) else none

end Encoding

end TypedSql.Text
