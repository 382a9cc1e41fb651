import BonsaiChain.Num2bin
import BonsaiChain.TxChange

/-!
# Base58Check and addresses

`bsv/base58.c` reads a string as a number in base 58 behind its leading ones, which stand for zero
bytes; the last four bytes are a checksum. An address holds a version byte and a public key hash.
-/

namespace BonsaiChain

def b58Alphabet : CString := ascii "123456789ABCDEFGHJKLMNPQRSTUVWXYZabcdefghijkmnopqrstuvwxyz"

/-- `b58_value`; `none` is -1. -/
def b58Value (c : UInt8) : Option ℕ := b58Alphabet.findIdx? (· == c)

/-- The number that `high` and the digits behind it spell. -/
def b58Digits (high : ℕ) : CString → Option ℕ
  | [] => some high
  | c :: cs => (b58Value c).bind fun v => b58Digits (high * 58 + v) cs

def base58Decode (str : CString) : Except Err Bytes :=
  match b58Digits 0 (str.dropWhile (· == 49)) with
  | none => .error .eparse
  | some n => .ok (List.replicate (str.takeWhile (· == 49)).length 0 ++ (bnMagnitudeLe n).reverse)

def sha256d (P : Prims) (bs : Bytes) : Block 32 := P.sha256 (P.sha256 bs).1

def base58checkDecode (P : Prims) (str : CString) : Except Err Bytes := do
  let raw ← base58Decode str
  if raw.length < 4 then throw .eparse
  let payload := raw.take (raw.length - 4)
  if (sha256d P payload).1.take 4 ≠ raw.drop (raw.length - 4) then throw .eintegrity
  return payload

/-- `bsv_network_t`. -/
inductive BsvNetwork where
  | mainnet | testnet
  deriving DecidableEq, Repr

def BsvNetwork.p2pkhVersion : BsvNetwork → UInt8
  | .mainnet => 0x00
  | .testnet => 0x6f

/-- `addr_to_h160`. -/
def addrToH160 (P : Prims) (net : BsvNetwork) (addr : CString) : Except Err (Block 20) :=
  if addr = [] then .error .einval
  else
    match base58checkDecode P addr with
    | .error e => .error e
    | .ok payload =>
      if h : (payload.drop 1).length = 20 then
        if payload.head? = some net.p2pkhVersion then .ok ⟨payload.drop 1, h⟩
        else .error .einval
      else .error .eparse

end BonsaiChain
