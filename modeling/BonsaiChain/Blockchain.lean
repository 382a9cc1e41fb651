import BonsaiChain.Base58

/-!
# Block headers and Merkle paths

`lib/blockchain.c` and `lib/merkle_path.c`: what a block header is on the wire, its hash and its
target, and the root that a path of siblings leads to from a transaction.
-/

namespace BonsaiChain

open Lib

section MerklePath

/-- `BONSAI_MERKLE_PROOF_DEPTH`. -/
def merkleProofDepth : ℕ := 32

/-- `MERKLE_INVALID_NODE`: the level is skipped. -/
def merkleInvalidNode : UInt32 := 0

/-- `MERKLE_LEFT_NODE`. -/
def merkleLeftNode : UInt32 := 1

/-- `merkle_node_t`; the position is whatever the enumeration's integer holds. -/
structure MerkleNode where
  hash : Block 32
  pos : UInt32
  deriving DecidableEq

abbrev MerkleProof := Vector MerkleNode merkleProofDepth

/-- The text of a level. Every position other than the left one is taken for the right one. -/
def merkleConcat (root : Block 32) (node : MerkleNode) : Bytes :=
  if node.pos = merkleLeftNode then node.hash.1 ++ root.1 else root.1 ++ node.hash.1

def merkleLevel (P : Prims) (root : Block 32) (node : MerkleNode) : Block 32 :=
  if node.pos = merkleInvalidNode then root else sha256d P (merkleConcat root node)

def calcMerkleRoot (P : Prims) (leaf : Block 32) (proof : MerkleProof) (depth : ℕ) :
    Except Err (Block 32) :=
  if depth > merkleProofDepth then .error .einval
  else .ok ((proof.toList.take depth).foldl (merkleLevel P) leaf)

end MerklePath

section Header

/-- `block_header_t`. -/
structure BlockHeader where
  version : Block 4
  prevBlockHash : Block 32
  merkleRoot : Block 32
  time : UInt64
  bits : Block 4
  nonce : UInt64
  deriving DecidableEq

/-- `append_le4`: the low four bytes. -/
def appendLe4 (out : Bytes) (v : UInt64) : Except Err Bytes :=
  byteBufAppend out [(v &&& 0xff).toUInt8, ((v >>> 8) &&& 0xff).toUInt8,
    ((v >>> 16) &&& 0xff).toUInt8, ((v >>> 24) &&& 0xff).toUInt8]

def blockHeaderSerialize (header : BlockHeader) (out : Bytes) : Except Err Bytes := do
  let out ← byteBufAppend out header.version.1
  let out ← byteBufAppend out header.prevBlockHash.1
  let out ← byteBufAppend out header.merkleRoot.1
  let out ← appendLe4 out header.time
  let out ← byteBufAppend out header.bits.1
  appendLe4 out header.nonce

def blockHeaderHash (P : Prims) (header : BlockHeader) : Except Err (Block 32) := do
  let ser ← blockHeaderSerialize header []
  return sha256d P ser

def blockHeaderHashAsInt (P : Prims) (header : BlockHeader) : Except Err ℤ := do
  let digest ← blockHeaderHash P header
  return leNat digest.1

def bits2target (bits : Block 4) : ℤ :=
  let exponent : ℤ := (bits.1.getD 3 0).toNat
  let coefficient := leNat (bits.1.take 3)
  let n := 8 * (exponent - 3)
  if 0 ≤ n then coefficient * 2 ^ n.toNat
  else if 32 ≤ -n then 0
  else (coefficient >>> (-n).toNat : ℕ)

def isValidBlockHeader (P : Prims) (header : BlockHeader) (blockchainTarget : ℤ) : Bool :=
  match blockHeaderHashAsInt P header with
  | .error _ => false
  | .ok bhHash =>
    let target := bits2target header.bits
    bhHash ≤ target && target ≤ blockchainTarget

def txInBlock (P : Prims) (txid : Block 32) (header : BlockHeader) (proof : MerkleProof)
    (depth : ℕ) : Bool :=
  match calcMerkleRoot P txid proof depth with
  | .error _ => false
  | .ok root => root = header.merkleRoot

end Header

end BonsaiChain
