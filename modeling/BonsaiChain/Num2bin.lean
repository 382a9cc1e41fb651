import BonsaiChain.Common
import BonsaiChain.Lib.Results

/-!
# Integers as script bytes

The two integer encoders of `bsv/num2bin.c`, over the big-number conversions they call. A `bn_t` is
an integer; OpenSSL's magnitude width is `bnNumBytes`. In the second section the sized encoder works
on the buffer it appends to: the width is a `size_t`, and the big-number library takes an `int`. It
writes as many bytes as that is, and the rest of what is appended is whatever the memory held.
-/

namespace BonsaiChain

open Lib

section Encoders

/-- `BN_num_bytes`: the least number of bytes that holds the magnitude. -/
def bnNumBytes (n : ℕ) : ℕ := if n = 0 then 0 else Nat.log2 n / 8 + 1

def bnToLeBytes (n : ℤ) (width : ℕ) : Except Err Bytes :=
  if n < 0 then .error .erange
  else if bnNumBytes n.natAbs > width then .error .erange
  else .ok (leBytes width n.natAbs)

/-- `bn_to_be_bytes` reversed, which is how `num2bin` uses it. -/
def bnMagnitudeLe (n : ℤ) : Bytes := leBytes (bnNumBytes n.natAbs) n.natAbs

def bnParseLe (data : Bytes) : ℤ := leNat data

/-- The byte list with `0x80` set in its last byte. -/
def setSignBit (bs : Bytes) : Bytes := bs.dropLast ++ [bs.getLastD 0 ||| 0x80]

def int2bytestringSized (n : ℤ) (width : ℕ) : Except Err Bytes := do
  let tmp ← bnToLeBytes n.natAbs width
  if width > 0 then
    if tmp.getLastD 0 &&& 0x80 ≠ 0 then .error .erange
    else if n < 0 then .ok (setSignBit tmp)
    else .ok tmp
  else if n ≠ 0 then .error .erange
  else .ok tmp

def int2bytestringMinimal (n : ℤ) : Bytes :=
  if n = 0 then []
  else
    let le := bnMagnitudeLe n
    if le.getLastD 0 &&& 0x80 ≠ 0 then le ++ [if n < 0 then 0x80 else 0x00]
    else if n < 0 then setSignBit le
    else le

end Encoders

section Width

/-- `(int)width`. -/
def intOfSize (width : ℕ) : ℤ := Int.bmod width (2 ^ 32)

/-- `bn_to_le_bytes`, in memory that holds `fresh`. -/
def bnToLeBytesIn (fresh : ℕ → UInt8) (n : ℤ) (width : ℕ) : Except Err Bytes :=
  if n < 0 then .error .erange
  else if bnNumBytes n.natAbs > intOfSize width then .error .erange
  else
    let written := (intOfSize width).toNat
    .ok (leBytes written n.natAbs
      ++ (List.range (width - written)).map fun i => fresh (written + i))

/-- `int2bytestring_sized`, on the buffer `out`. -/
def int2bytestringSizedOut (fresh : ℕ → UInt8) (n : ℤ) (width : ℕ) :
    ExceptT Err (StateM Bytes) Unit := do
  let tmp ← liftM (bnToLeBytesIn fresh n.natAbs width)
  if width > 0 then
    if tmp.getLastD 0 &&& 0x80 ≠ 0 then throw .erange
    else if n < 0 then modify (· ++ setSignBit tmp)
    else modify (· ++ tmp)
  else if n ≠ 0 then throw .erange
  else modify (· ++ tmp)

end Width

end BonsaiChain
