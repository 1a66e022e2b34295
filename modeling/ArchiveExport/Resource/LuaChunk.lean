import ArchiveExport.Bytes.Basic
import ArchiveExport.Text.Utf8

/-!
# Compiled Lua chunks

Only the header of a compiled chunk is decoded. A chunk of Lua 5.1 goes on with the name of its
source, whose size stands in a field of the header's own size and byte order.
-/

namespace ArchiveExport

/-- The header of a compiled Lua chunk. -/
structure LuaChunk where
  version : String
  format : Nat
  littleEndian : Bool
  intSize : Nat
  sizeSize : Nat
  instructionSize : Nat
  numberSize : Nat
  integral : Bool
  sourceName : String
  size : Nat

namespace LuaChunk

/-- Why octets are no compiled chunk. -/
inductive Fault where
  | signature
  deriving DecidableEq

/-- The fault in words. -/
def Fault.message : Fault → String
  | .signature => "not a compiled Lua chunk"

/-- The name of the source behind the header, without the NULs it ends with. -/
def sourceNameIn (littleEndian : Bool) (sizeSize : Nat) (body : Bytes) : String :=
  let field := body.take sizeSize
  if field.length < sizeSize then ""
  else
    let length := Bytes.toNat (if littleEndian then field else field.reverse)
    let octets := (body.drop sizeSize).take length
    String.ofList (Text.Utf8.decodeLossy (octets.reverse.dropWhile (· = 0)).reverse)

/-- The header of the chunk in a file. -/
def decode (bs : Bytes) : Except Fault LuaChunk :=
  match bs with
  | 0x1B :: 0x4C :: 0x75 :: 0x61 :: version :: format :: endian :: intSize :: sizeSize ::
      instructionSize :: numberSize :: integral :: body =>
    let named := version = 0x51 ∧ (sizeSize = 4 ∨ sizeSize = 8)
    .ok {
      version := s!"{version.toNat / 16}.{version.toNat % 16}"
      format := format.toNat
      littleEndian := endian = 1
      intSize := intSize.toNat
      sizeSize := sizeSize.toNat
      instructionSize := instructionSize.toNat
      numberSize := numberSize.toNat
      integral := integral ≠ 0
      sourceName := if named then sourceNameIn (endian = 1) sizeSize.toNat body else ""
      size := bs.length }
  | _ => .error .signature

end LuaChunk

end ArchiveExport
