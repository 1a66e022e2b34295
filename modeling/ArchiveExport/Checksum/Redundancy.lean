import ArchiveExport.Bytes.Basic

/-!
# Redundancy checks

The two sums that guard compressed data and the chunks of an image file: Adler-32, two sums modulo
a prime, and CRC-32, the remainder of a polynomial division.
-/

namespace ArchiveExport.Checksum

/-- Adler-32 of a byte string. -/
def adler32 (bs : Bytes) : Nat :=
  let sums := bs.foldl (fun (s : Nat × Nat) b =>
    let low := (s.1 + b.toNat) % 65521
    (low, (s.2 + low) % 65521)) (1, 0)
  65536 * sums.2 + sums.1

/-- The remainder of an octet after eight divisions. -/
def crcEntry (n : UInt32) : UInt32 :=
  (List.range 8).foldl
    (fun (c : UInt32) _ => if c &&& 1 = 1 then (0xEDB88320 : UInt32) ^^^ (c >>> 1) else c >>> 1) n

/-- The remainders of all octets. -/
def crcTable : Array UInt32 :=
  ((List.range 256).map fun n => crcEntry (UInt32.ofNat n)).toArray

/-- CRC-32 of a byte string. -/
def crc32 (bs : Bytes) : Nat :=
  let last := bs.foldl (fun (c : UInt32) b =>
    crcTable.getD ((c ^^^ b.toUInt32) &&& 0xFF).toNat 0 ^^^ (c >>> 8)) 0xFFFFFFFF
  (last ^^^ 0xFFFFFFFF).toNat

end ArchiveExport.Checksum
