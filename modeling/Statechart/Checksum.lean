/-
The checksum of a text: CRC-32C of its bytes, in eight hexadecimal digits.

The remainder starts with all bits set and is inverted at the end; bits are taken
least significant first, so the polynomial is written in reverse.
-/

namespace Statechart.Checksum

/-- The reversed polynomial of CRC-32C. -/
def polynomial : UInt32 := 0x82F63B78

/-- Takes one bit of the remainder. -/
def stepBit (crc : UInt32) : UInt32 :=
  if crc &&& 1 = 1 then (crc >>> 1) ^^^ polynomial else crc >>> 1

/-- Takes some bits of the remainder. -/
def stepBits : Nat → UInt32 → UInt32
  | 0, crc => crc
  | n + 1, crc => stepBits n (stepBit crc)

/-- Takes a byte of the text. -/
def stepByte (crc : UInt32) (byte : UInt8) : UInt32 :=
  stepBits 8 (crc ^^^ byte.toUInt32)

/-- The checksum of bytes. -/
def crc32c (bytes : ByteArray) : UInt32 :=
  bytes.foldl stepByte 0xFFFFFFFF ^^^ 0xFFFFFFFF

/-- The low hexadecimal digits of a number, as many as asked for. -/
def hexDigits (n : Nat) : Nat → List Char
  | 0 => []
  | count + 1 => hexDigits (n / 16) count ++ [Nat.digitChar (n % 16)]

/-- The checksum of a text. -/
def ofText (s : String) : String :=
  String.ofList (hexDigits (crc32c s.toUTF8).toNat 8)

end Statechart.Checksum
