import CallScript.Bytes.Sink
import CallScript.Hex

/-! # Addresses

The 20-byte names of contracts.

* **`Address`** is an address; **`Address.text`** writes it with the marker `0x`.
* **`Address.parse?`** insists on the marker, **`Address.parseLenient?`** does not. -/

namespace CallScript

/-- A contract **address** of 20 bytes. -/
@[ext] structure Address where
  /-- The bytes of the address. -/
  bytes : Block 20
  deriving DecidableEq

namespace Address

/-- An address is written as its bytes. -/
instance : Encode Address := Encode.inOnePiece fun address => address.bytes.toList

/-- An address as text: the marker `0x` and 40 lowercase digits. -/
def text (address : Address) : String :=
  "0x" ++ Hex.encode address.bytes.toList

/-- Read 40 hexadecimal digits of either case. -/
def ofDigits? (digits : List Char) : Option Address := do
  let bytes ← Hex.decode? digits
  return ⟨← Block.ofBytes? 20 bytes⟩

/-- Read an address written with the marker `0x`. -/
def parse? (token : String) : Option Address := do
  ofDigits? (← Hex.afterMarker? token.toList)

/-- Read an address written with or without the marker `0x`. -/
def parseLenient? (token : String) : Option Address :=
  ofDigits? (Hex.dropMarker token.toList)

end Address

end CallScript
