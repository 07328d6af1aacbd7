import SysAgent.Lib.Bytes

set_option autoImplicit false

/-! # Bytes as hexadecimal text

Two digits for a byte, the high one first. -/

namespace HexText

def digit (n : Nat) : Char := if n < 10 then Char.ofNat (48 + n) else Char.ofNat (55 + n)

def pair (b : UInt8) : List Char := [digit (b.toNat / 16), digit (b.toNat % 16)]

/-- The bytes in upper case, without blanks. -/
def upper (bytes : List UInt8) : List Char := bytes.flatMap pair

end HexText
