import BonsaiChain.Address
import BonsaiChain.Lib.Radix

/-!
# Base58 in a buffer

`base58_encode` and `base58_decode` as they run: a buffer of the size that the length of the input
asks for, and a walk of carries in it for every further byte or character.
-/

namespace BonsaiChain

open Lib

/-- `base58_encode`; a digit fits in a byte of the buffer. -/
def base58EncodeBuf (data : Bytes) : CString :=
  let zeros := (data.takeWhile (· == 0)).length
  let size := data.length * 138 / 100 + 1
  let buf := (radixBuffer 256 58 size ((data.drop zeros).map UInt8.toNat)).1
  List.replicate zeros 49 ++ (buf.dropWhile (· == 0)).map fun d => b58Alphabet.getD d 49

/-- The characters behind the leading ones, into the buffer and its highest byte in use. -/
def b58ReadBuf (s : List ℕ × ℕ) : CString → Except Err (List ℕ × ℕ)
  | [] => .ok s
  | c :: cs =>
    match b58Value c with
    | none => .error .eparse
    | some v => b58ReadBuf (radixStep 58 256 s v) cs

/-- `base58_decode`. -/
def base58DecodeBuf (str : CString) : Except Err Bytes :=
  let zeros := (str.takeWhile (· == 49)).length
  let size := str.length * 733 / 1000 + 1
  match b58ReadBuf (List.replicate size 0, size) (str.drop zeros) with
  | .error e => .error e
  | .ok (buf, _) =>
    .ok (List.replicate zeros 0 ++ (buf.dropWhile (· == 0)).map UInt8.ofNat)

/-- `base58check_encode`. -/
def base58checkEncodeBuf (P : Prims) (data : Bytes) : CString :=
  base58EncodeBuf (data ++ (sha256d P data).1.take 4)

/-- `base58check_decode`. -/
def base58checkDecodeBuf (P : Prims) (str : CString) : Except Err Bytes := do
  let raw ← base58DecodeBuf str
  if raw.length < 4 then throw .eparse
  let payload := raw.take (raw.length - 4)
  if (sha256d P payload).1.take 4 ≠ raw.drop (raw.length - 4) then throw .eintegrity
  return payload

end BonsaiChain
