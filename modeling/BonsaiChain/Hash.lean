import BonsaiChain.Lib.Sha256
import BonsaiChain.TxChange

/-!
# Hashes

`crypto/hash.c` over the vendored `ripemd160.c`: two lines of eighty steps with their own word
orders, rotations and constants. A word is a natural number below `2 ^ 32`, and a block is the
number that its bytes spell.
-/

namespace BonsaiChain

open Lib

namespace Ripemd160

def rl : List (List ℕ) :=
  [[0, 1, 2, 3, 4, 5, 6, 7, 8, 9, 10, 11, 12, 13, 14, 15],
    [7, 4, 13, 1, 10, 6, 15, 3, 12, 0, 9, 5, 2, 14, 11, 8],
    [3, 10, 14, 4, 9, 15, 8, 1, 2, 7, 0, 6, 13, 11, 5, 12],
    [1, 9, 11, 10, 0, 8, 12, 4, 13, 3, 7, 15, 14, 5, 6, 2],
    [4, 0, 5, 9, 7, 12, 2, 10, 14, 1, 3, 8, 11, 6, 15, 13]]

def rr : List (List ℕ) :=
  [[5, 14, 7, 0, 9, 2, 11, 4, 13, 6, 15, 8, 1, 10, 3, 12],
    [6, 11, 3, 7, 0, 13, 5, 10, 14, 15, 8, 12, 4, 9, 1, 2],
    [15, 5, 1, 3, 7, 14, 6, 9, 11, 8, 12, 2, 10, 0, 4, 13],
    [8, 6, 4, 1, 3, 11, 15, 0, 5, 12, 2, 13, 9, 7, 10, 14],
    [12, 15, 10, 4, 1, 5, 8, 7, 6, 2, 13, 14, 0, 3, 9, 11]]

def sl : List (List ℕ) :=
  [[11, 14, 15, 12, 5, 8, 7, 9, 11, 13, 14, 15, 6, 7, 9, 8],
    [7, 6, 8, 13, 11, 9, 7, 15, 7, 12, 15, 9, 11, 7, 13, 12],
    [11, 13, 6, 7, 14, 9, 13, 15, 14, 8, 13, 6, 5, 12, 7, 5],
    [11, 12, 14, 15, 14, 15, 9, 8, 9, 14, 5, 6, 8, 6, 5, 12],
    [9, 15, 5, 11, 6, 8, 13, 12, 5, 12, 13, 14, 11, 8, 5, 6]]

def sr : List (List ℕ) :=
  [[8, 9, 9, 11, 13, 15, 15, 5, 7, 7, 8, 11, 14, 14, 12, 6],
    [9, 13, 15, 7, 12, 8, 9, 11, 7, 7, 12, 7, 6, 15, 13, 11],
    [9, 7, 15, 11, 8, 6, 6, 14, 12, 13, 5, 14, 13, 13, 7, 5],
    [15, 5, 8, 11, 14, 14, 6, 14, 6, 9, 12, 9, 12, 5, 15, 8],
    [8, 5, 12, 9, 12, 5, 14, 6, 8, 13, 6, 5, 15, 13, 11, 11]]

def kl : List ℕ := [0x00000000, 0x5a827999, 0x6ed9eba1, 0x8f1bbcdc, 0xa953fd4e]

def kr : List ℕ := [0x50a28be6, 0x5c4dd124, 0x6d703ef3, 0x7a6d76e9, 0x00000000]

def rol (x n : ℕ) : ℕ := (x * 0x100000001) >>> (32 - n) % 0x100000000

/-- `~x`. -/
def not32 (x : ℕ) : ℕ := 0xffffffff - x

def f1 (x y z : ℕ) : ℕ := x ^^^ y ^^^ z

def f2 (x y z : ℕ) : ℕ := (x &&& y) ||| (not32 x &&& z)

def f3 (x y z : ℕ) : ℕ := (x ||| not32 y) ^^^ z

def f4 (x y z : ℕ) : ℕ := (x &&& z) ||| (y &&& not32 z)

def f5 (x y z : ℕ) : ℕ := x ^^^ (y ||| not32 z)

structure State where
  (a b c d e : ℕ)

/-- One step of a line, with its function and constant, its word and its rotation. -/
def step (f : ℕ → ℕ → ℕ → ℕ) (k : ℕ) (s : State) (x n : ℕ) : State :=
  ⟨s.e, add32 (rol ((s.a + f s.b s.c s.d + x + k) % 0x100000000) n) s.e, s.b, rol s.c 10, s.d⟩

/-- The sixteen steps of a line that have one function and one constant. -/
def steps (f : ℕ → ℕ → ℕ → ℕ) (k block : ℕ) : List ℕ → List ℕ → State → State
  | r :: rs, n :: ns, s =>
    steps f k block rs ns (step f k s (block >>> (32 * r) % 0x100000000) n)
  | _, _, s => s

def line (block : ℕ) :
    List (ℕ → ℕ → ℕ → ℕ) → List ℕ → List (List ℕ) → List (List ℕ) → State → State
  | f :: fs, k :: ks, r :: rs, n :: ns, s => line block fs ks rs ns (steps f k block r n s)
  | _, _, _, _, s => s

def compress (s : State) (bytes : Bytes) : State :=
  let block := leNat bytes
  let l := line block [f1, f2, f3, f4, f5] kl rl sl s
  let r := line block [f5, f4, f3, f2, f1] kr rr sr s
  ⟨add32 s.b (l.c + r.d), add32 s.c (l.d + r.e), add32 s.d (l.e + r.a), add32 s.e (l.a + r.b),
    add32 s.a (l.b + r.c)⟩

def initialState : State := ⟨0x67452301, 0xefcdab89, 0x98badcfe, 0x10325476, 0xc3d2e1f0⟩

end Ripemd160

open Ripemd160 in
def ripemd160 (data : Bytes) : Bytes :=
  let s := foldBlocks compress initialState (padMessage (leBytes 8) data)
  [s.a, s.b, s.c, s.d, s.e].flatMap (leBytes 4)

theorem ripemd160_length (data : Bytes) : (ripemd160 data).length = 20 := by
  simp [ripemd160]

example : ripemd160 [0x61, 0x62, 0x63] = [0x8e, 0xb2, 0x08, 0xf7, 0xe0, 0x5d, 0x98, 0x7a, 0x9b,
    0x04, 0x4a, 0x8e, 0x98, 0xc6, 0xb0, 0x87, 0xf1, 0x5a, 0x0b, 0xfc] := by decide +kernel

def sha256 (data : Bytes) : Block 32 := ⟨Sha256.digest data, Sha256.digest_length data⟩

def hash160 (data : Bytes) : Block 20 := ⟨ripemd160 (sha256 data).1, ripemd160_length _⟩

/-- The functions that the code runs with. -/
def codePrims : Prims := ⟨sha256, hash160, TxChange.feeForSize⟩

end BonsaiChain
