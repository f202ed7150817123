import MetaFilogic.Library.Bytes

/-!
# The reflected CRC-32 without inversions

`crc32Le` is the checksum of the kernel's `crc32_le`: the reflected polynomial
`0xEDB88320`, a caller-supplied seed and no final inversion.  Checking a
structure piece by piece is checking its concatenation.
-/

namespace MetaFilogic

namespace Crc32

def bitStep (crc : BitVec 32) : BitVec 32 :=
  (crc >>> 1) ^^^ (if crc.getLsbD 0 then 0xEDB88320#32 else 0#32)

def byteStep (crc : BitVec 32) (byte : Byte) : BitVec 32 :=
  Nat.repeat bitStep 8 (crc ^^^ byte.setWidth 32)

def crc32Le (crc : BitVec 32) (bytes : List Byte) : BitVec 32 :=
  bytes.foldl byteStep crc

theorem crc32Le_append (crc : BitVec 32) (front back : List Byte) :
    crc32Le crc (front ++ back) = crc32Le (crc32Le crc front) back :=
  List.foldl_append

end Crc32

end MetaFilogic
