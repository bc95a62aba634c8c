/-!
# CRC-32

The reflected cyclic redundancy check with polynomial `0xedb88320`, one bit at a time.
-/

namespace TypeLang.Crc32

def shiftBit (register : UInt32) : UInt32 :=
  if register &&& 1 = 1 then (register >>> 1) ^^^ 0xedb88320 else register >>> 1

def shiftByte (register : UInt32) (b : UInt8) : UInt32 :=
  (List.range 8).foldl (fun r _ => shiftBit r) (register ^^^ b.toUInt32)

def checksum (bytes : List UInt8) : UInt32 :=
  bytes.foldl shiftByte 0xffffffff ^^^ 0xffffffff

end TypeLang.Crc32
