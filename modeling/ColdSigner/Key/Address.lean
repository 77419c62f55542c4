import ColdSigner.Bytes
import ColdSigner.Hash.Blake2b

/-! Addresses: a network format and a public key, with two bytes of check, in base 58. -/
namespace ColdSigner

namespace Base58

def alphabet : List Char :=
  "123456789ABCDEFGHJKLMNPQRSTUVWXYZabcdefghijkmnopqrstuvwxyz".toList

def digit (v : Nat) : Char := alphabet.getD v '1'

/-- The digits of a number from the highest, none for zero. -/
def digits (n : Nat) (acc : List Char) : List Char :=
  if _h : n = 0 then acc else digits (n / 58) (digit (n % 58) :: acc)
termination_by n

/-- The number of the bytes in base 58, after one zero digit for each leading zero byte. -/
def encode (b : Bytes) : String :=
  String.ofList ((b.takeWhile (· == 0)).map (fun _ => digit 0) ++ digits b.toNatBE [])

end Base58

namespace Address

/-- One byte for the formats below 64. From there on the low byte without its two
last bits moves into the first byte, under a flag, and the two bits join the high
byte in the second. -/
def formatBytes (format : UInt16) : Bytes :=
  if format < 64 then [format.toUInt8]
  else
    [((format &&& 0xFC) >>> 2).toUInt8 ||| 0x40,
      (format >>> 8).toUInt8 ||| ((format &&& 3).toUInt8 <<< 6)]

/-- The address of a public key. -/
def encode (format : UInt16) (key : Bytes) : String :=
  let body := formatBytes format ++ key
  let check := (Blake2b.hash 64 (Bytes.ofText "SS58PRE" ++ body)).bytes
  Base58.encode (body ++ check.take 2)

end Address

end ColdSigner
