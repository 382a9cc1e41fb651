import BonsaiChain.Lib.LittleEndian

/-!
# SHA-256

A word is a natural number below `2 ^ 32`, and a rotation reads off a word that stands twice in a
row. A block is the number its bytes spell: a round uses up its first word and puts the one that is
sixteen rounds later behind the last.
-/

namespace BonsaiChain.Lib

/-- A message with a one bit, zeros and its length in bits behind it. -/
def padMessage (length8 : ℕ → List UInt8) (msg : List UInt8) : List UInt8 :=
  msg ++ 0x80 :: (List.replicate ((119 - msg.length % 64) % 64) 0 ++ length8 (8 * msg.length))

/-- The first `n` blocks of 64 bytes. -/
def blocksOf : ℕ → List UInt8 → List (List UInt8)
  | 0, _ => []
  | n + 1, bs => bs.take 64 :: blocksOf n (bs.drop 64)

/-- The blocks of a padded message, one after the other. -/
def foldBlocks {σ : Type} (compress : σ → List UInt8 → σ) (s : σ) (padded : List UInt8) : σ :=
  (blocksOf (padded.length / 64) padded).foldl compress s

def add32 (x y : ℕ) : ℕ := (x + y) % 0x100000000

namespace Sha256

structure State where
  (a b c d e f g h : ℕ)

def initialState : State :=
  ⟨0x6a09e667, 0xbb67ae85, 0x3c6ef372, 0xa54ff53a, 0x510e527f, 0x9b05688c, 0x1f83d9ab, 0x5be0cd19⟩

def roundConstants : List ℕ :=
  [0x428a2f98, 0x71374491, 0xb5c0fbcf, 0xe9b5dba5, 0x3956c25b, 0x59f111f1, 0x923f82a4, 0xab1c5ed5,
    0xd807aa98, 0x12835b01, 0x243185be, 0x550c7dc3, 0x72be5d74, 0x80deb1fe, 0x9bdc06a7, 0xc19bf174,
    0xe49b69c1, 0xefbe4786, 0x0fc19dc6, 0x240ca1cc, 0x2de92c6f, 0x4a7484aa, 0x5cb0a9dc, 0x76f988da,
    0x983e5152, 0xa831c66d, 0xb00327c8, 0xbf597fc7, 0xc6e00bf3, 0xd5a79147, 0x06ca6351, 0x14292967,
    0x27b70a85, 0x2e1b2138, 0x4d2c6dfc, 0x53380d13, 0x650a7354, 0x766a0abb, 0x81c2c92e, 0x92722c85,
    0xa2bfe8a1, 0xa81a664b, 0xc24b8b70, 0xc76c51a3, 0xd192e819, 0xd6990624, 0xf40e3585, 0x106aa070,
    0x19a4c116, 0x1e376c08, 0x2748774c, 0x34b0bcb5, 0x391c0cb3, 0x4ed8aa4a, 0x5b9cca4f, 0x682e6ff3,
    0x748f82ee, 0x78a5636f, 0x84c87814, 0x8cc70208, 0x90befffa, 0xa4506ceb, 0xbef9a3f7, 0xc67178f2]

/-- `Σ`: a word rotated by three amounts. -/
def bigSigma (i j k x : ℕ) : ℕ :=
  let twice := x * 0x100000001
  (twice >>> i ^^^ twice >>> j ^^^ twice >>> k) % 0x100000000

/-- `σ`: a word rotated by two amounts and shifted by a third. -/
def smallSigma (i j k x : ℕ) : ℕ :=
  let twice := x * 0x100000001
  (twice >>> i ^^^ twice >>> j) % 0x100000000 ^^^ x >>> k

def ch (x y z : ℕ) : ℕ := z ^^^ (x &&& (y ^^^ z))

def maj (x y z : ℕ) : ℕ := (x &&& y) ||| (z &&& (x ||| y))

/-- Word `i` of a block. -/
def word (block i : ℕ) : ℕ := block >>> (32 * (15 - i)) % 0x100000000

/-- The block with its first word used up. -/
def nextBlock (block : ℕ) : ℕ :=
  (block % 2 ^ 480) <<< 32 + add32 (word block 0 + smallSigma 7 18 3 (word block 1))
    (word block 9 + smallSigma 17 19 10 (word block 14))

def round (s : State) (k w : ℕ) : State :=
  let t₁ := s.h + bigSigma 6 11 25 s.e + ch s.e s.f s.g + k + w
  let t₂ := bigSigma 2 13 22 s.a + maj s.a s.b s.c
  ⟨add32 t₁ t₂, s.a, s.b, s.c, add32 s.d t₁, s.e, s.f, s.g⟩

def rounds : List ℕ → ℕ → State → State
  | [], _, s => s
  | k :: ks, block, s => rounds ks (nextBlock block) (round s k (word block 0))

def compress (s : State) (bytes : List UInt8) : State :=
  let t := rounds roundConstants (leNat bytes.reverse) s
  ⟨add32 s.a t.a, add32 s.b t.b, add32 s.c t.c, add32 s.d t.d, add32 s.e t.e, add32 s.f t.f,
    add32 s.g t.g, add32 s.h t.h⟩

def bigEndian (w n : ℕ) : List UInt8 := (leBytes w n).reverse

def digest (msg : List UInt8) : List UInt8 :=
  let s := foldBlocks compress initialState (padMessage (bigEndian 8) msg)
  [s.a, s.b, s.c, s.d, s.e, s.f, s.g, s.h].flatMap (bigEndian 4)

theorem digest_length (msg : List UInt8) : (digest msg).length = 32 := by
  simp [digest, bigEndian]

example : digest [0x61, 0x62, 0x63] = [0xba, 0x78, 0x16, 0xbf, 0x8f, 0x01, 0xcf, 0xea, 0x41, 0x41,
    0x40, 0xde, 0x5d, 0xae, 0x22, 0x23, 0xb0, 0x03, 0x61, 0xa3, 0x96, 0x17, 0x7a, 0x9c, 0xb4, 0x10,
    0xff, 0x61, 0xf2, 0x00, 0x15, 0xad] := by decide +kernel

end Sha256

end BonsaiChain.Lib
