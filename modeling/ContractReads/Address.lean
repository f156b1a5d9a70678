import ContractReads.Keccak
import ContractReads.Text.Hex

/-!
# Checksummed addresses

The letters of an address are written in upper case where the hash of its lower-case digits has a
digit of at least eight.
-/

namespace ContractReads.Address

/-- The four-bit digits of a byte string. -/
def nibbles (bs : Bytes) : List Nat := bs.flatMap fun b => [b.toNat / 16, b.toNat % 16]

/-- The text of an address with a checksum in the case of its letters. -/
def checksummed (a : Address) : String :=
  let digits := (Hex.encode a.toBytes).toList
  let marks := nibbles (keccakText (Hex.encode a.toBytes)).toBytes
  "0x" ++ String.ofList (List.zipWith (fun c n => if 8 ≤ n then c.toUpper else c) digits marks)

end ContractReads.Address
