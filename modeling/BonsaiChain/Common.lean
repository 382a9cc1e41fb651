import BonsaiChain.Lib.LittleEndian
import BonsaiChain.Lib.Parser

/-!
# Results, bytes and hex

The error codes, byte buffers, C strings and the lower-case hex codec every other module is
written over. A C string is the list of its bytes before the terminating NUL. Running out of memory
is not modelled.
-/

namespace BonsaiChain

/-- `bonsai_err_t` without `BNS_OK`, which is `Except.ok`. -/
inductive Err where
  | einval | ecrypto | enet | eparse | enotfound | epersist | eshredded | eintegrity | ebinding
  | ehoplimit | eperm | enomem | eunsupported | erange
  deriving DecidableEq, Repr

abbrev Bytes := List UInt8

abbrev CString := List UInt8

/-- A `uint8_t[n]`. -/
abbrev Block (n : ℕ) := { bs : Bytes // bs.length = n }

def Block.fill (n : ℕ) (b : UInt8) : Block n := ⟨List.replicate n b, List.length_replicate⟩

/-- A conversion to `uint32_t`. -/
def u32OfInt (z : ℤ) : UInt32 := UInt32.ofNat (z % 2 ^ 32).toNat

/-- A conversion to `uint64_t`. -/
def u64OfInt (z : ℤ) : UInt64 := UInt64.ofNat (z % 2 ^ 64).toNat

/-- A string constant of the source, as the bytes of its ASCII characters. -/
def ascii (s : String) : CString := s.toList.map fun c => UInt8.ofNat c.toNat

/-- `%llu`. -/
def decimal (n : ℕ) : CString := (Nat.toDigits 10 n).map fun c => UInt8.ofNat c.toNat

/-- `%lld`. -/
def decimalInt (n : ℤ) : CString :=
  if n < 0 then 45 :: decimal n.natAbs else decimal n.natAbs

/-- The largest `size_t`. -/
def sizeMax : ℕ := 2 ^ 64 - 1

/-- `byte_buf_append`: a buffer never grows past `SIZE_MAX` bytes. -/
def byteBufAppend (out data : Bytes) : Except Err Bytes :=
  if data.length = 0 then .ok out
  else if data.length > sizeMax - out.length then .error .enomem
  else .ok (out ++ data)

def hexNibble (c : UInt8) : Option UInt8 :=
  if 48 ≤ c ∧ c ≤ 57 then some (c - 48)
  else if 97 ≤ c ∧ c ≤ 102 then some (c - 97 + 10)
  else if 65 ≤ c ∧ c ≤ 70 then some (c - 65 + 10)
  else none

/-- `HEX_LC[n]`. -/
def hexDigit (n : UInt8) : UInt8 := if n < 10 then 48 + n else 87 + n

def hexEncode : Bytes → CString
  | [] => []
  | b :: bs => hexDigit (b >>> 4) :: hexDigit (b &&& 15) :: hexEncode bs

def hexDecode : CString → Except Err Bytes
  | [] => .ok []
  | [_] => .error .eparse
  | hi :: lo :: rest =>
    match hexNibble hi, hexNibble lo, hexDecode rest with
    | some h, some l, .ok bs => .ok ((h <<< 4 ||| l) :: bs)
    | _, _, _ => .error .eparse

def hexDecodeFixed (hex : CString) (nbytes : ℕ) : Except Err Bytes :=
  if hex.length ≠ 2 * nbytes then .error .eparse else hexDecode hex

def isHexLen (s : CString) (nbytes : ℕ) : Bool :=
  s.length == 2 * nbytes && s.all fun c => (hexNibble c).isSome

def isSha256Hex (s : CString) : Bool := isHexLen s 32

def isPubkeyHex (s : CString) : Bool :=
  isHexLen s 33 && s[0]? == some 48 && (s[1]? == some 50 || s[1]? == some 51)

def hexToLower (s : CString) : CString :=
  s.map fun c => if 65 ≤ c ∧ c ≤ 70 then c - 65 + 97 else c

end BonsaiChain
