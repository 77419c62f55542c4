import ColdSigner.Bytes

/-! The 32-bit cyclic redundancy check of the reflected polynomial `0xEDB88320`.

The register starts with all bits set and is complemented at the end. -/
namespace ColdSigner.Wire.Checksum

def polynomial : UInt32 := 0xEDB88320

/-- One bit leaves the register. -/
def shift (c : UInt32) : UInt32 :=
  if c &&& 1 = 1 then polynomial ^^^ (c >>> 1) else c >>> 1

/-- One byte enters the register. -/
def feed (c : UInt32) (b : UInt8) : UInt32 :=
  shift (shift (shift (shift (shift (shift (shift (shift (c ^^^ b.toUInt32))))))))

def crc32 (b : Bytes) : UInt32 := ~~~ b.foldl feed 0xFFFFFFFF

def length : Nat := 4

/-- The check as it follows a payload, little-endian. -/
def encode (b : Bytes) : Bytes := Bytes.ofNat length (crc32 b).toNat

end ColdSigner.Wire.Checksum
